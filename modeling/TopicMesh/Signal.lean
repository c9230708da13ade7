import TopicMesh.Error
import TopicMesh.Text.Blank
import TopicMesh.Text.Numeral

/-!
# Signals

Two peers agree on a channel by **signals**: an offer, an answer, candidates for
the channel's address, and a farewell.  A candidate's `line` names a transport
address in a fixed order of words; `hostLine` writes the line of a host
candidate and `endpointOf` reads host and port back.
-/

namespace TopicMesh

/-- A place where a channel may be reached. -/
structure Candidate where
  /-- The number of the description's line that the candidate belongs to. -/
  label : UInt32
  /-- The name of that line. -/
  id : String
  /-- The words that describe the place. -/
  line : String
deriving DecidableEq, Repr, Inhabited

/-- A message on the signaling stream. -/
inductive Signal
  | offer (description : String)
  | answer (description : String)
  | candidate (c : Candidate)
  /-- The sender leaves. -/
  | bye
deriving DecidableEq, Repr, Inhabited

/-- The name of a signal's kind. -/
def Signal.kind : Signal → String
  | offer _ => "offer"
  | answer _ => "answer"
  | candidate _ => "candidate"
  | bye => "bye"

namespace Candidate

/-- The line of a host candidate that waits for connections. -/
def hostLine (host : String) (port : UInt16) : String :=
  s!"candidate:1 1 tcp 2122260223 {host} {port} typ host tcptype passive"

/-- Why a candidate line names no address to dial. -/
inductive Fault
  /-- Not the words of a host candidate. -/
  | unsupported (line : String)
  /-- The sixth word is no port number. -/
  | badPort (line : String)
deriving DecidableEq, Repr

/-- The error that an unusable line is reported as. -/
def Fault.toError : Fault → Error
  | unsupported line => .protocolViolation ("unsupported candidate: " ++ line)
  | badPort line => .protocolViolation ("bad candidate port: " ++ line)

/-- The host and port of a host candidate's line: the fifth and sixth of at least
eight words, of which the first begins with `candidate:` and the eighth is
`host`. -/
def endpointOf (line : String) : Except Fault (String × UInt16) :=
  match Text.words line with
  | head :: _ :: _ :: _ :: host :: port :: _ :: kind :: _ =>
    if "candidate:".toList.isPrefixOf head.toList ∧ kind = "host" then
      match Text.port? port with
      | some p => .ok (host, p)
      | none => .error (.badPort line)
    else .error (.unsupported line)
  | _ => .error (.unsupported line)

end Candidate

end TopicMesh
