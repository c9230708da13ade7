import TopicMesh.Json.Parser
import TopicMesh.Json.Printer
import TopicMesh.Json.Record
import TopicMesh.Message

/-!
# Messages as JSON

Messages, wills and reply data are written as records with their fields in a
fixed order; `correlation` and `reply` are left out when absent.  They are read
by the rules for records, and these fields may be missing: `qos`, `retain`,
`reply`, `timestamp`, `correlation`, `sequence` and `end`.

A record that is read as it arrives and one that has first been kept whole
differ in one point, the argument `kept`: how a delivery guarantee may be
spelled.
-/

namespace TopicMesh

open Json

/-- The name of a delivery guarantee. -/
def QoS.toJson (q : QoS) : Json :=
  .text q.name

/-- The delivery guarantee that a value names: by its name, or as an object whose
only member has that name and a value that says nothing. -/
def QoS.ofJson? (kept : Bool) : Json → Option QoS
  | .string (some name) => ofName? name
  | .object [(some name, .null)] => ofName? name
  | .object [(some name, .object [])] => if kept then ofName? name else none
  | _ => none

namespace ReplyInfo

/-- The names of the fields, in order. -/
def fieldNames : List String :=
  ["reply_topic", "correlation", "sequence", "end"]

/-- The record of some reply data. -/
def toJson (r : ReplyInfo) : Json :=
  .record (members [
    some ("reply_topic", .text r.replyTopic),
    r.correlation.map fun c => ("correlation", .text c),
    some ("sequence", .integer r.sequence.toNat),
    some ("end", .bool r.isLast)])

/-- The reply data of a record's fields. -/
def ofSlots? : List (Option Json) → Option ReplyInfo
  | [replyTopic, correlation, sequence, isLast] => do
    pure ⟨← required text? replyTopic, ← optional text? correlation,
      ← defaulted 0 uint32? sequence, ← defaulted false bool? isLast⟩
  | _ => none

/-- The reply data of a record. -/
def ofJson? (j : Json) : Option ReplyInfo :=
  (slots? fieldNames j).bind ofSlots?

end ReplyInfo

namespace Will

/-- The names of the fields, in order. -/
def fieldNames : List String :=
  ["topic", "payload", "qos", "retain"]

/-- The record of a will. -/
def toJson (w : Will) : Json :=
  .record [
    ("topic", .text w.topic),
    ("payload", ofBytes w.payload),
    ("qos", w.qos.toJson),
    ("retain", .bool w.retain)]

/-- The will of a record's fields. -/
def ofSlots? (kept : Bool) : List (Option Json) → Option Will
  | [topic, payload, qos, retain] => do
    pure ⟨← required text? topic, ← required bytes? payload,
      ← defaulted .atMostOnce (QoS.ofJson? kept) qos, ← defaulted false bool? retain⟩
  | _ => none

/-- The will of a record. -/
def ofJson? (kept : Bool) (j : Json) : Option Will :=
  (slots? fieldNames j).bind (ofSlots? kept)

end Will

namespace Message

/-- The names of the fields, in order. -/
def fieldNames : List String :=
  ["topic", "payload", "qos", "retain", "reply", "timestamp"]

/-- The members of a message's record. -/
def toMembers (m : Message) : List (String × Json) :=
  members [
    some ("topic", .text m.topic),
    some ("payload", ofBytes m.payload),
    some ("qos", m.qos.toJson),
    some ("retain", .bool m.retain),
    m.reply.map fun r => ("reply", r.toJson),
    some ("timestamp", .integer m.timestamp.toInt)]

/-- The record of a message. -/
def toJson (m : Message) : Json :=
  .record m.toMembers

/-- The message of a record's fields. -/
def ofSlots? (kept : Bool) : List (Option Json) → Option Message
  | [topic, payload, qos, retain, reply, timestamp] => do
    pure ⟨← required text? topic, ← required bytes? payload,
      ← defaulted .atMostOnce (QoS.ofJson? kept) qos, ← defaulted false bool? retain,
      ← optional ReplyInfo.ofJson? reply, ← defaulted 0 int64? timestamp⟩
  | _ => none

/-- The message of a record. -/
def ofJson? (kept : Bool) (j : Json) : Option Message :=
  (slots? fieldNames j).bind (ofSlots? kept)

/-- The text of a message by itself. -/
def toText (m : Message) : String :=
  m.toJson.render

/-- The message that a text is by itself. -/
def ofText? (s : String) : Option Message :=
  (Json.parse? s).bind (ofJson? false)

end Message

end TopicMesh
