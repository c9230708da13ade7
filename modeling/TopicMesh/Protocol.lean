/-!
# Protocols

A topic's traffic can travel in five ways, its **protocols**.  Each owns one bit,
and the bits travel in announcements.  A `ProtocolSet` holds the protocols that a
caller asks for; it is the mask of their bits.

Only `peerRtc` is connection-oriented: it needs a session before payload can
flow, so a publish splits its set into that part and the rest.
-/

namespace TopicMesh

/-- A way for a topic's traffic to travel. -/
inductive Protocol
  /-- Relayed by the control broker. -/
  | broker
  /-- A stream connection to the subscriber's port. -/
  | stream
  /-- A datagram to the subscriber's port. -/
  | datagram
  /-- An encrypted stream connection. -/
  | secureStream
  /-- A channel between two peers, agreed on in a session. -/
  | peerRtc
deriving DecidableEq, Repr, Inhabited

namespace Protocol

/-- Every protocol, by ascending bit. -/
def all : List Protocol :=
  [broker, stream, datagram, secureStream, peerRtc]

/-- The position of a protocol's bit. -/
def index : Protocol → Nat
  | broker => 0
  | stream => 1
  | datagram => 2
  | secureStream => 3
  | peerRtc => 4

/-- The bit of a protocol. -/
def bits (p : Protocol) : Nat :=
  1 <<< p.index

/-- The protocol whose bit is the given number; a mask of several is none. -/
def ofBits? (n : Nat) : Option Protocol :=
  all.find? fun p => p.bits == n

/-- The name of a protocol. -/
def name : Protocol → String
  | broker => "broker"
  | stream => "stream"
  | datagram => "datagram"
  | secureStream => "secure-stream"
  | peerRtc => "peer-rtc"

/-- The protocol of a name, read without regard to the case of ASCII letters. -/
def ofName? (s : String) : Option Protocol :=
  all.find? fun p => s.toList.map Char.toLower == p.name.toList

/-- Whether payload can flow only within a session. -/
def isConnectionOriented (p : Protocol) : Bool :=
  p == peerRtc

theorem mem_all (p : Protocol) : p ∈ all := by
  cases p <;> decide

theorem ofBits?_bits (p : Protocol) : ofBits? p.bits = some p := by
  cases p <;> rfl

theorem bits_of_ofBits? {n : Nat} {p : Protocol} (h : ofBits? n = some p) : p.bits = n := by
  simpa using List.find?_some h

end Protocol

/-- A set of protocols, as the mask of their bits. -/
structure ProtocolSet where
  /-- The mask. -/
  mask : BitVec 5
deriving DecidableEq, Repr, Inhabited

namespace ProtocolSet

/-- The set without members. -/
def empty : ProtocolSet := ⟨0⟩

/-- Whether the set has no member. -/
def isEmpty (s : ProtocolSet) : Bool :=
  s.mask == 0

/-- The set of one protocol. -/
def only (p : Protocol) : ProtocolSet :=
  ⟨BitVec.ofNat 5 p.bits⟩

/-- The members' bits as a number. -/
def bits (s : ProtocolSet) : Nat :=
  s.mask.toNat

/-- The set of the known protocols among the bits of a number. -/
def ofBits (n : Nat) : ProtocolSet :=
  ⟨BitVec.ofNat 5 n⟩

/-- Whether a protocol is a member. -/
def contains (s : ProtocolSet) (p : Protocol) : Bool :=
  s.mask.getLsbD p.index

/-- Adds a protocol. -/
def insert (s : ProtocolSet) (p : Protocol) : ProtocolSet :=
  ⟨s.mask ||| (only p).mask⟩

/-- Takes a protocol out. -/
def remove (s : ProtocolSet) (p : Protocol) : ProtocolSet :=
  ⟨s.mask &&& ~~~ (only p).mask⟩

/-- The members, by ascending bit. -/
def toList (s : ProtocolSet) : List Protocol :=
  Protocol.all.filter s.contains

/-- The set of the protocols in a list. -/
def ofList (ps : List Protocol) : ProtocolSet :=
  ps.foldl insert empty

/-- The members that are not connection-oriented, and those that are. -/
def split (s : ProtocolSet) : ProtocolSet × ProtocolSet :=
  (ofList (s.toList.filter fun p => !p.isConnectionOriented),
    ofList (s.toList.filter Protocol.isConnectionOriented))

theorem contains_insert (s : ProtocolSet) (p q : Protocol) :
    (s.insert p).contains q = (s.contains q || p == q) := by
  obtain ⟨m⟩ := s
  simp only [insert, contains, only, BitVec.getLsbD_or]
  cases p <;> cases q <;> rfl

theorem mem_toList {s : ProtocolSet} {p : Protocol} : p ∈ s.toList ↔ s.contains p = true := by
  simp [toList, Protocol.mem_all]

end ProtocolSet

/-- The delivery guarantee asked of the transport below.  The mesh passes it on
untouched. -/
inductive QoS
  | atMostOnce
  | atLeastOnce
  | exactlyOnce
deriving DecidableEq, Repr, Inhabited

namespace QoS

/-- The name of a guarantee, as frames carry it. -/
def name : QoS → String
  | atMostOnce => "AtMostOnce"
  | atLeastOnce => "AtLeastOnce"
  | exactlyOnce => "ExactlyOnce"

/-- The guarantee of a name. -/
def ofName? (s : String) : Option QoS :=
  [atMostOnce, atLeastOnce, exactlyOnce].find? fun q => q.name == s

/-- The number of a guarantee. -/
def level : QoS → Nat
  | atMostOnce => 0
  | atLeastOnce => 1
  | exactlyOnce => 2

theorem ofName?_name (q : QoS) : ofName? q.name = some q := by
  cases q <;> decide

end QoS

end TopicMesh
