import TopicMesh.ControlFrame
import TopicMesh.Error

/-!
# Lines over a network

A **remote line** reaches the broker over a link of its own, which may be lost and
made again.  Links are numbered.  Each link has a reader, which ends with the
link, and that may be noticed late: when another link has taken its place, or when
the owner has taken leave.  So the end of a reader counts as the loss of the link
only if its link is the one that is installed (`readerEnded`).
-/

namespace TopicMesh

/-- A link to the broker. -/
structure RemoteLink where
  number : Nat
  /-- Whether frames can still be written to it. -/
  writable : Bool
deriving DecidableEq, Repr, Inhabited

/-- **A line over a network.** -/
structure RemoteLine where
  client : String
  /-- The will that goes with the next greeting. -/
  will : Option Will
  /-- The link that is installed. -/
  link : Option RemoteLink
  /-- How many links there have been. -/
  links : Nat
  /-- The frames given to links, each with the link's number, oldest first. -/
  sent : List (Nat × ClientFrame)
deriving DecidableEq, Repr, Inhabited

namespace RemoteLine

/-- A line that has not been connected. -/
def new (client : String) : RemoteLine := ⟨client, none, none, 0, []⟩

/-- Whether a link is installed. -/
def isConnected (line : RemoteLine) : Bool :=
  line.link.isSome

/-- Connects the line, unless it is connected; `dialed` is what the attempt to
reach and greet the broker comes to. -/
def connect (line : RemoteLine) (dialed : Except Error Unit) : Except Error RemoteLine :=
  if line.isConnected then .ok line
  else dialed.map fun _ =>
    let number := line.links + 1
    { line with
      link := some ⟨number, true⟩
      links := number
      sent := line.sent ++ [(number, .connect line.client line.will)] }

/-- Gives a frame to the link: a message to publish, a subscription, or the end of one. -/
def send (line : RemoteLine) (f : ClientFrame) : Except Error RemoteLine :=
  match line.link with
  | some ⟨number, true⟩ => .ok { line with sent := line.sent ++ [(number, f)] }
  | _ => .error .notConnected

/-- Takes leave of the broker. -/
def disconnect (line : RemoteLine) : RemoteLine :=
  match line.send .disconnect with
  | .ok left => { left with link := none }
  | .error _ => { line with link := none }

/-- Nothing can be written to a link any more. -/
def writerEnded (line : RemoteLine) (number : Nat) : RemoteLine :=
  { line with
    link := line.link.map fun l => if l.number = number then { l with writable := false } else l }

/-- The reader of a link has ended; also whether the owner is told that the line
was lost. -/
def readerEnded (line : RemoteLine) (number : Nat) : RemoteLine × Bool :=
  if line.link.map RemoteLink.number = some number then ({ line with link := none }, true)
  else (line, false)

end RemoteLine

end TopicMesh
