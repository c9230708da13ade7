import TopicMesh.Message
import TopicMesh.Error

/-!
# Frames on a byte stream

A peer channel is a stream of bytes that carries frames one after the other.  A
frame is a header of thirteen bytes (kind, width, height and length of the data,
all big-endian) and then its data.

`writeFrame` refuses data over `maxFrameLength`.  `readFrame` takes one frame off
a stream, or says that the stream ended between two frames, or fails; a failing
read says which bytes it left untouched.  `readFrames` reads on until the end or
the first failure.
-/

namespace TopicMesh.Wire

/-- The most data that one frame may carry. -/
def maxFrameLength : Nat := 16777216

/-- The byte of a frame kind. -/
def kindByte : FrameKind → UInt8
  | .message => 0
  | .video => 1

/-- The frame kind of a byte. -/
def kindOfByte? (b : UInt8) : Option FrameKind :=
  if b = 0 then some .message else if b = 1 then some .video else none

/-- The bytes of a frame, whatever its length. -/
def frameBytes (f : Frame) : Bytes :=
  kindByte f.shape.kind :: (bigEndian f.shape.width.toNat 4 ++ bigEndian f.shape.height.toNat 4 ++
    bigEndian f.data.length 4 ++ f.data)

/-- Why a frame is not written or read. -/
inductive FrameFault
  /-- More data than a frame may carry. -/
  | oversized (length : Nat)
  /-- A first byte that names no kind. -/
  | unknownKind (byte : UInt8)
  /-- A header that announces more data than a frame may carry. -/
  | announcesTooMuch (length : Nat)
  /-- The stream ends within a frame. -/
  | endsInside
deriving DecidableEq, Repr

/-- The error that a fault of a frame is reported as. -/
def FrameFault.toError : FrameFault → Error
  | oversized n => .encode s!"frame of {n} bytes exceeds {maxFrameLength} bytes"
  | unknownKind b => .decode s!"unknown frame kind {b}"
  | announcesTooMuch n => .decode s!"frame length {n} exceeds limit"
  | endsInside => .io "unexpected end of file"

/-- The bytes of a frame that is not too long. -/
def writeFrame (f : Frame) : Except FrameFault Bytes :=
  if maxFrameLength < f.data.length then .error (.oversized f.data.length)
  else .ok (frameBytes f)

/-- What a read from a stream of frames comes to. -/
inductive FrameRead
  /-- A frame, and the bytes after it. -/
  | frame (f : Frame) (rest : Bytes)
  /-- The stream ended between two frames. -/
  | finished
  /-- A failure, and the bytes that were not looked at. -/
  | failed (fault : FrameFault) (rest : Bytes)

/-- Reads the rest of a frame after its kind. -/
def readBody (kind : FrameKind) (bytes : Bytes) : FrameRead :=
  match takeNumber 4 bytes with
  | none => .failed .endsInside []
  | some (width, bytes) =>
    match takeNumber 4 bytes with
    | none => .failed .endsInside []
    | some (height, bytes) =>
      match takeNumber 4 bytes with
      | none => .failed .endsInside []
      | some (length, bytes) =>
        if maxFrameLength < length then .failed (.announcesTooMuch length) bytes
        else
          match takeExactly length bytes with
          | none => .failed .endsInside []
          | some (data, rest) =>
            .frame ⟨⟨kind, UInt32.ofNat width, UInt32.ofNat height⟩, data⟩ rest

/-- Reads one frame. -/
def readFrame : Bytes → FrameRead
  | [] => .finished
  | b :: bytes =>
    match kindOfByte? b with
    | none => .failed (.unknownKind b) bytes
    | some kind => readBody kind bytes

/-- How a stream of frames ends. -/
inductive FrameEnd
  /-- Between two frames. -/
  | clean
  /-- By a failure, with the bytes that were not looked at. -/
  | failed (fault : FrameFault) (rest : Bytes)

/-- Reads at most `limit` frames. -/
def readUpTo : (limit : Nat) → Bytes → List Frame × FrameEnd
  | 0, bytes => ([], .failed .endsInside bytes)
  | limit + 1, bytes =>
    match readFrame bytes with
    | .finished => ([], .clean)
    | .failed fault rest => ([], .failed fault rest)
    | .frame f rest =>
      let (frames, ending) := readUpTo limit rest
      (f :: frames, ending)

/-- Reads frames until the stream ends or fails.  Each frame takes at least one
byte, so there are at most as many reads as bytes, and one more for the end. -/
def readFrames (bytes : Bytes) : List Frame × FrameEnd :=
  readUpTo (bytes.length + 1) bytes

end TopicMesh.Wire
