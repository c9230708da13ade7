import TopicMesh.ControlFrame
import TopicMesh.Message.Json

/-!
# Control frames as JSON

On a control stream each frame is one text: a record whose member `type` is the
frame's kind.
-/

namespace TopicMesh

open Json

namespace ClientFrame

/-- The name of a frame's kind. -/
def kind : ClientFrame → String
  | connect _ _ => "connect"
  | subscribe _ _ => "subscribe"
  | unsubscribe _ => "unsubscribe"
  | publish _ => "publish"
  | disconnect => "disconnect"

/-- The members of a frame's record after its kind. -/
def toMembers : ClientFrame → List (String × Json)
  | connect client will =>
    members [some ("client_id", .text client), will.map fun w => ("will", w.toJson)]
  | subscribe filter qos => [("filter", .text filter), ("qos", qos.toJson)]
  | unsubscribe filter => [("filter", .text filter)]
  | publish m => m.toMembers
  | disconnect => []

/-- The record of a frame. -/
def toJson (f : ClientFrame) : Json :=
  .record (("type", .text f.kind) :: f.toMembers)

/-- The greeting of a record's fields. -/
def connectOfSlots? : List (Option Json) → Option ClientFrame
  | [client, will] => do
    pure (connect (← required text? client) (← optional (Will.ofJson? true) will))
  | _ => none

/-- The subscription of a record's fields. -/
def subscribeOfSlots? : List (Option Json) → Option ClientFrame
  | [filter, qos] => do
    pure (subscribe (← required text? filter) (← defaulted .atMostOnce (QoS.ofJson? true) qos))
  | _ => none

/-- The frame of a kind whose other members are the given record. -/
def ofKind? (kind : String) (fields : Json) : Option ClientFrame :=
  if kind = "connect" then (slots? ["client_id", "will"] fields).bind connectOfSlots?
  else if kind = "subscribe" then (slots? ["filter", "qos"] fields).bind subscribeOfSlots?
  else if kind = "unsubscribe" then (soleText? "filter" fields).map unsubscribe
  else if kind = "publish" then (Message.ofJson? true fields).map publish
  else if kind = "disconnect" then
    if fields.isBare then some disconnect else none
  else none

/-- The text of a frame. -/
def toText (f : ClientFrame) : String :=
  f.toJson.render

/-- The frame that a text is. -/
def ofText? (s : String) : Option ClientFrame := do
  let (kind, fields) ← taggedText? s
  ofKind? kind fields

end ClientFrame

namespace ServerFrame

/-- The name of a frame's kind. -/
def kind : ServerFrame → String
  | accepted _ => "connack"
  | deliver _ => "deliver"
  | refused _ => "error"

/-- The members of a frame's record after its kind. -/
def toMembers : ServerFrame → List (String × Json)
  | accepted client => [("client_id", .text client)]
  | deliver m => m.toMembers
  | refused reason => [("reason", .text reason)]

/-- The record of a frame. -/
def toJson (f : ServerFrame) : Json :=
  .record (("type", .text f.kind) :: f.toMembers)

/-- The frame of a kind whose other members are the given record. -/
def ofKind? (kind : String) (fields : Json) : Option ServerFrame :=
  if kind = "connack" then (soleText? "client_id" fields).map accepted
  else if kind = "deliver" then (Message.ofJson? true fields).map deliver
  else if kind = "error" then (soleText? "reason" fields).map refused
  else none

/-- The text of a frame. -/
def toText (f : ServerFrame) : String :=
  f.toJson.render

/-- The frame that a text is. -/
def ofText? (s : String) : Option ServerFrame := do
  let (kind, fields) ← taggedText? s
  ofKind? kind fields

end ServerFrame

end TopicMesh
