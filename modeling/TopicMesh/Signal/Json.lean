import TopicMesh.Json.Parser
import TopicMesh.Json.Printer
import TopicMesh.Json.Record
import TopicMesh.Signal

/-!
# Signals as JSON

On the signaling stream each signal is one text: a record whose member `type` is
the signal's kind.
-/

namespace TopicMesh

open Json

namespace Candidate

/-- The names of the fields, in order. -/
def fieldNames : List String :=
  ["label", "id", "candidate"]

/-- The members of a candidate's record. -/
def toMembers (c : Candidate) : List (String × Json) :=
  [("label", .integer c.label.toNat), ("id", .text c.id), ("candidate", .text c.line)]

/-- The candidate of a record's fields. -/
def ofSlots? : List (Option Json) → Option Candidate
  | [label, id, line] => do
    pure ⟨← required uint32? label, ← required text? id, ← required text? line⟩
  | _ => none

end Candidate

namespace Signal

/-- The members of a signal's record after its kind. -/
def toMembers : Signal → List (String × Json)
  | offer description => [("sdp", .text description)]
  | answer description => [("sdp", .text description)]
  | candidate c => c.toMembers
  | bye => []

/-- The record of a signal. -/
def toJson (s : Signal) : Json :=
  .record (("type", .text s.kind) :: s.toMembers)

/-- The signal of a kind whose other members are the given record. -/
def ofKind? (kind : String) (fields : Json) : Option Signal :=
  if kind = "offer" then (soleText? "sdp" fields).map offer
  else if kind = "answer" then (soleText? "sdp" fields).map answer
  else if kind = "candidate" then
    ((slots? Candidate.fieldNames fields).bind Candidate.ofSlots?).map candidate
  else if kind = "bye" then
    if fields.isBare then some bye else none
  else none

/-- The text of a signal. -/
def toText (s : Signal) : String :=
  s.toJson.render

/-- The signal that a text is. -/
def ofText? (s : String) : Option Signal := do
  let (kind, fields) ← taggedText? s
  ofKind? kind fields

end Signal

end TopicMesh
