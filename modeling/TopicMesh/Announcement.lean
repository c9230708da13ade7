import TopicMesh.Error
import TopicMesh.KeyMap
import TopicMesh.Protocol
import TopicMesh.Pack.Reader
import TopicMesh.Pack.Writer
import TopicMesh.Text.Utf8

/-!
# Announcements

A node tells the others which topics it serves by an **announcement**: its
status, its host and, per topic, a protocol and a port (`Capability`).  The
announcement of a node that has left carries no topics.

On the wire an announcement is one MessagePack map.  The keys `status` and `host`
are reserved, every other key is a topic, and a topic's value holds the protocol's
bit and the port.  `encode` refuses an announcement without a host and a topic
whose name is reserved.

`decode` takes the payload as a whole or not at all: if anything in it is not as
laid down, nothing is used.  Only a topic with an unknown protocol or a port out
of range is dropped by itself, so that later nodes may announce what earlier ones
do not know.
-/

namespace TopicMesh

/-- Whether a node is there or has left. -/
inductive Status
  | connected
  | disconnected
deriving DecidableEq, Repr, Inhabited

/-- The word for a status. -/
def Status.word : Status → String
  | connected => "connected"
  | disconnected => "disconnected"

/-- The status of a word. -/
def Status.ofWord? (s : String) : Option Status :=
  if s = "connected" then some connected
  else if s = "disconnected" then some disconnected
  else none

/-- How a node serves a topic. -/
structure Capability where
  protocol : Protocol
  port : UInt16
deriving DecidableEq, Repr, Inhabited

/-- What a node says about itself. -/
structure Announcement where
  status : Status
  /-- Where the node is reached. -/
  host : String
  /-- The topics it serves. -/
  topics : KeyMap String Capability
deriving DecidableEq, Inhabited

/-- Whether a topic's name is taken by a key of the announcement itself. -/
def isReservedKey (topic : String) : Bool :=
  topic == "status" || topic == "host"

namespace Announcement

/-- The announcement of a departure. -/
def departure (host : String) : Announcement :=
  ⟨.disconnected, host, .empty⟩

/-! ## Writing -/

/-- Why an announcement is not written. -/
inductive EncodeFault
  | noHost
  | reservedTopic (topic : String)
deriving DecidableEq, Repr

/-- The error that an announcement which cannot be written is reported as. -/
def EncodeFault.toError : EncodeFault → Error
  | noHost => .invalidArgument "announcement without host"
  | reservedTopic topic => .invalidArgument s!"topic '{topic}' collides with a reserved key"

/-- A text as a value. -/
def packText (s : String) : Pack :=
  .blob (Utf8.encode s)

/-- A topic and its capability as an entry. -/
def packTopic (entry : String × Capability) : Pack × Pack :=
  (packText entry.1,
    .map [(packText "protocol", .unsigned entry.2.protocol.bits 0),
      (packText "port", .unsigned entry.2.port.toNat 0)])

/-- The topics that an announcement carries on the wire. -/
def carried (a : Announcement) : KeyMap String Capability :=
  match a.status with
  | .connected => a.topics
  | .disconnected => .empty

/-- An announcement as a map. -/
def toPack (a : Announcement) : Pack :=
  .map ((packText "status", packText a.status.word) :: (packText "host", packText a.host) ::
    a.carried.entries.map packTopic)

/-- The bytes of an announcement. -/
def encode (a : Announcement) : Except EncodeFault Bytes :=
  if a.host = "" then .error .noHost
  else
    match a.topics.keys.find? isReservedKey with
    | some topic => .error (.reservedTopic topic)
    | none => .ok a.toPack.write

/-! ## Reading -/

/-- Why bytes are no announcement. -/
inductive DecodeFault
  /-- Not a map as laid down. -/
  | illFormed
  | emptyHost
  | unknownStatus (word : String)
deriving DecidableEq, Repr

/-- The error that unusable bytes are reported as. -/
def DecodeFault.toError : DecodeFault → Error
  | illFormed => .malformedAnnouncement "not an announcement"
  | emptyHost => .malformedAnnouncement "empty host"
  | unknownStatus word => .malformedAnnouncement s!"unknown status '{word}'"

/-- The text that a value holds. -/
def text? : Pack → Option String
  | .blob bytes => (Utf8.decode bytes).toOption
  | _ => none

/-- A number of 32 bits without sign, in any form. -/
def uint32? : Pack → Option Nat
  | .unsigned n _ => if n < 4294967296 then some n else none
  | .signed n => if 0 ≤ n ∧ n < 4294967296 then some n.toNat else none
  | _ => none

/-- The keys of a capability. -/
inductive Field
  | protocol
  | port
  /-- Any other key; its value is skipped. -/
  | other
deriving DecidableEq

/-- The field that a key names: by its name, or by its position, as a number in a
form of one byte or of eight. -/
def Field.ofKey? : Pack → Option Field
  | .blob bytes =>
    if bytes = Utf8.encode "protocol" then some protocol
    else if bytes = Utf8.encode "port" then some port
    else some other
  | .unsigned n width =>
    if width ≤ 1 ∨ width = 8 then
      some (if n = 0 then protocol else if n = 1 then port else other)
    else none
  | _ => none

/-- The values of a field among some entries; `none` if a key is no field's. -/
def fieldValues? (field : Field) : List (Pack × Pack) → Option (List Pack)
  | [] => some []
  | (key, value) :: rest => do
    let named ← Field.ofKey? key
    let values ← fieldValues? field rest
    pure (if named = field then value :: values else values)

/-- The protocol's bits and the port that a topic's value holds, as numbers. -/
def numbers? : Pack → Option (Nat × Nat)
  | .map entries =>
    match fieldValues? .protocol entries, fieldValues? .port entries with
    | some [protocol], some [port] => do pure (← uint32? protocol, ← uint32? port)
    | _, _ => none
  | .array [protocol, port] => do pure (← uint32? protocol, ← uint32? port)
  | _ => none

/-- The capability that two numbers stand for. -/
def capability? (numbers : Nat × Nat) : Option Capability :=
  match Protocol.ofBits? numbers.1 with
  | none => none
  | some protocol =>
    if numbers.2 < UInt16.size then some ⟨protocol, UInt16.ofNat numbers.2⟩ else none

/-- The entries of a map with their keys as texts. -/
def textEntries? (entries : List (Pack × Pack)) : Option (List (String × Pack)) :=
  entries.mapM fun (key, value) => (text? key).map fun key => (key, value)

/-- The values of the entries with a key. -/
def valuesOf (key : String) (entries : List (String × Pack)) : List Pack :=
  (entries.filter fun e => e.1 == key).map Prod.snd

/-- The host in some entries. -/
def host? (entries : List (String × Pack)) : Option String :=
  match valuesOf "host" entries with
  | [value] => text? value
  | _ => none

/-- The word for the status in some entries; a missing one counts as connected. -/
def statusWord? (entries : List (String × Pack)) : Option String :=
  match valuesOf "status" entries with
  | [] => some Status.connected.word
  | [.nil] => some Status.connected.word
  | [value] => text? value
  | _ => none

/-- The topics in some entries, with their numbers. -/
def topics? (entries : List (String × Pack)) : Option (List (String × Nat × Nat)) :=
  (entries.filter fun e => !isReservedKey e.1).mapM fun (topic, value) =>
    (numbers? value).map fun numbers => (topic, numbers)

/-- What a payload says before its words and numbers are looked at. -/
structure Raw where
  host : String
  status : String
  topics : List (String × Nat × Nat)

/-- The parts of a map. -/
def Raw.ofPack? : Pack → Option Raw
  | .map entries => do
    let entries ← textEntries? entries
    pure ⟨← host? entries, ← statusWord? entries, ← topics? entries⟩
  | _ => none

/-- Of some topics those whose numbers stand for a capability.  Of two entries
for one topic only the later is looked at. -/
def served (topics : List (String × Nat × Nat)) : KeyMap String Capability :=
  topics.foldl (fun known entry => known.put entry.1 (capability? entry.2)) .empty

/-- The announcement that the parts of a payload make. -/
def ofRaw (raw : Raw) : Except DecodeFault Announcement :=
  if raw.host = "" then .error .emptyHost
  else
    match Status.ofWord? raw.status with
    | none => .error (.unknownStatus raw.status)
    | some .disconnected => .ok (departure raw.host)
    | some .connected => .ok ⟨.connected, raw.host, served raw.topics⟩

/-- The announcement that some bytes encode. -/
def decode (bytes : Bytes) : Except DecodeFault Announcement :=
  match (Pack.read? bytes).bind Raw.ofPack? with
  | none => .error .illFormed
  | some raw => ofRaw raw

end Announcement

end TopicMesh
