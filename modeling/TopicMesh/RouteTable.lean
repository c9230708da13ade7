import TopicMesh.KeyMap.Nested
import TopicMesh.Protocol

/-!
# The route table

A node's **route table** says which remote hosts serve a topic, on which port and
by which protocol.  Announcements fill it, and every publish reads it.  A route
may hold a session; the table only knows the session's name, of any type `σ`.
A route is kept under its topic, host and port, and names its host and port itself.

The table is read by `route?`.  Routes are changed one at a time by `change`,
which keeps no empty part of the table behind, so `topics` lists just the topics
that somebody serves.

Whatever takes a session out of the table hands it out, **once**, to be closed.
An update that keeps a route's protocol keeps its session; one that changes the
protocol displaces it.
-/

namespace TopicMesh

/-- A route: how one port of a host serves a topic. -/
structure RouteEntry (σ : Type) where
  host : String
  port : UInt16
  protocol : Protocol
  /-- The session that payload travels in. -/
  session : Option σ
deriving DecidableEq, Repr

/-- What an announcement says of one topic. -/
structure RouteUpdate where
  topic : String
  port : UInt16
  protocol : Protocol
deriving DecidableEq, Repr, Inhabited

/-- The routes of a host, by port. -/
abbrev PortMap (σ : Type) := KeyMap UInt16 (RouteEntry σ)

/-- The routes of a topic, by host and port. -/
abbrev HostMap (σ : Type) := KeyMap String (PortMap σ)

/-- **The route table**: routes by topic, host and port. -/
structure RouteTable (σ : Type) where
  byTopic : KeyMap String (HostMap σ)

namespace RouteTable

variable {σ : Type}

instance [DecidableEq σ] : DecidableEq (RouteTable σ) := fun t t' =>
  if h : t.byTopic = t'.byTopic then
    .isTrue (by cases t; cases t'; cases h; rfl)
  else
    .isFalse fun e => h (e ▸ rfl)

/-- The table without routes. -/
def empty : RouteTable σ := ⟨.empty⟩

instance : Inhabited (RouteTable σ) := ⟨empty⟩

/-- The route of a topic to a host's port. -/
def route? (t : RouteTable σ) (topic host : String) (port : UInt16) : Option (RouteEntry σ) :=
  (t.byTopic.at₂? topic host).bind fun ports => ports.get? port

/-- Makes, changes or drops the route of a topic to a host's port. -/
def change (t : RouteTable σ) (topic host : String) (port : UInt16)
    (f : Option (RouteEntry σ) → Option (RouteEntry σ)) : RouteTable σ :=
  ⟨t.byTopic.within topic fun hosts => hosts.within host fun ports =>
    ports.put port (f (ports.get? port))⟩

/-! ## Announcements -/

/-- The route to a host's port after an update to a protocol. -/
def updated (host : String) (port : UInt16) (protocol : Protocol) :
    Option (RouteEntry σ) → RouteEntry σ
  | some r => if r.protocol = protocol then r else { r with protocol := protocol, session := none }
  | none => ⟨host, port, protocol, none⟩

/-- The session that an update to a protocol displaces. -/
def displacedBy (protocol : Protocol) : Option (RouteEntry σ) → Option σ
  | some r => if r.protocol = protocol then none else r.session
  | none => none

/-- Makes a route, or gives it another protocol; also the displaced session. -/
def upsert (t : RouteTable σ) (topic host : String) (port : UInt16) (protocol : Protocol) :
    RouteTable σ × Option σ :=
  (t.change topic host port fun r => some (updated host port protocol r),
    displacedBy protocol (t.route? topic host port))

/-- Makes all updates of a host's announcement; also the displaced sessions. -/
def apply (t : RouteTable σ) (host : String) : List RouteUpdate → RouteTable σ × List σ
  | [] => (t, [])
  | u :: rest =>
    let (t, displaced) := t.upsert u.topic host u.port u.protocol
    let (t, others) := t.apply host rest
    (t, displaced.toList ++ others)

/-- Drops the routes of a host that are named by topic and port; also their
sessions.  Names of no route are skipped. -/
def retire (t : RouteTable σ) (host : String) : List (String × UInt16) → RouteTable σ × List σ
  | [] => (t, [])
  | (topic, port) :: rest =>
    let session := (t.route? topic host port).bind RouteEntry.session
    let (t, others) := (t.change topic host port fun _ => none).retire host rest
    (t, session.toList ++ others)

/-- The sessions of a host's routes, by port. -/
def sessionsOfPorts (ports : PortMap σ) : List σ :=
  ports.values.filterMap RouteEntry.session

/-- The sessions of a topic's routes, by host and port. -/
def sessionsOfHosts (hosts : HostMap σ) : List σ :=
  hosts.values.flatMap sessionsOfPorts

/-- All sessions, by topic, host and port. -/
def sessions (t : RouteTable σ) : List σ :=
  t.byTopic.values.flatMap sessionsOfHosts

/-- Drops all routes of a host; also their sessions. -/
def removeHost (t : RouteTable σ) (host : String) : RouteTable σ × List σ :=
  (⟨t.byTopic.everywhere fun hosts => hosts.erase host⟩,
    t.byTopic.values.flatMap fun hosts => sessionsOfPorts (hosts.innerOf host))

/-- Drops all routes of a topic; also their sessions. -/
def forgetTopic (t : RouteTable σ) (topic : String) : RouteTable σ × List σ :=
  (⟨t.byTopic.erase topic⟩, sessionsOfHosts (t.byTopic.innerOf topic))

/-- Drops all routes; also their sessions. -/
def clear (t : RouteTable σ) : RouteTable σ × List σ :=
  (empty, t.sessions)

/-! ## Listings -/

/-- The routes of a topic, by host and port. -/
def lookup (t : RouteTable σ) (topic : String) : List (RouteEntry σ) :=
  (t.byTopic.innerOf topic).values.flatMap KeyMap.values

/-- The topics that have a route, ascending. -/
def topics (t : RouteTable σ) : List String :=
  t.byTopic.keys

/-- The number of routes. -/
def size (t : RouteTable σ) : Nat :=
  (t.byTopic.values.flatMap fun hosts => hosts.values.flatMap KeyMap.entries).length

/-- Whether there is no route. -/
def isEmpty (t : RouteTable σ) : Bool :=
  t.size == 0

/-! ## Sessions -/

/-- What a route holds when somebody wants to use its session. -/
inductive Tenancy (σ : Type)
  /-- There is no such route. -/
  | noRoute
  /-- A session that has not closed. -/
  | held (session : σ)
  /-- No session, or one that has closed. -/
  | vacant
deriving DecidableEq, Repr

/-- What a route holds, given which sessions have closed. -/
def tenancy (closed : σ → Bool) (t : RouteTable σ) (topic host : String) (port : UInt16) :
    Tenancy σ :=
  match t.route? topic host port with
  | none => .noRoute
  | some r =>
    match r.session with
    | none => .vacant
    | some s => if closed s then .vacant else .held s

/-- Lets a route hold a session. -/
def attach (t : RouteTable σ) (topic host : String) (port : UInt16) (session : σ) : RouteTable σ :=
  t.change topic host port fun r => r.map fun r => { r with session := some session }

/-- The session of a route, and whether it is the offered one, which is taken
when the route holds none that is still open. -/
def sessionOrInsert (closed : σ → Bool) (t : RouteTable σ) (topic host : String) (port : UInt16)
    (offered : σ) : RouteTable σ × Option (σ × Bool) :=
  match t.tenancy closed topic host port with
  | .noRoute => (t, none)
  | .held s => (t, some (s, false))
  | .vacant => (t.attach topic host port offered, some (offered, true))

/-- Takes a session off its route, if the route still holds that very one; also
whether it did. -/
def detach [DecidableEq σ] (t : RouteTable σ) (topic host : String) (port : UInt16) (session : σ) :
    RouteTable σ × Bool :=
  if (t.route? topic host port).bind RouteEntry.session = some session then
    (t.change topic host port fun r => r.map fun r => { r with session := none }, true)
  else (t, false)

/-! ## What a change does to the reading -/

theorem route?_change (t : RouteTable σ) (topic topic' host host' : String) (port port' : UInt16)
    (f : Option (RouteEntry σ) → Option (RouteEntry σ)) :
    (t.change topic host port f).route? topic' host' port' =
      if topic = topic' ∧ host = host' ∧ port = port' then f (t.route? topic host port)
      else t.route? topic' host' port' := by
  have reading : ∀ (t : RouteTable σ) topic host port,
      t.route? topic host port = (t.byTopic.innerOf topic).at₂? host port := by
    intro t topic host port
    unfold route?
    rw [KeyMap.at₂?_eq]
    rfl
  have inner : ∀ (m : KeyMap String (HostMap σ)) k l (g : HostMap σ → HostMap σ),
      (m.within k g).innerOf l = if k = l then g (m.innerOf k) else m.innerOf l := by
    intro m k l g
    unfold KeyMap.within KeyMap.innerOf
    rw [KeyMap.get?_put]
    by_cases h : k = l
    · simp only [h, if_true, KeyMap.nonEmpty?]
      split
      · next he => exact (KeyMap.eq_empty_of_isEmpty he).symm
      · rfl
    · simp [h]
  rw [reading, reading, reading]
  show ((t.byTopic.within topic _).innerOf topic').at₂? host' port' = _
  rw [inner]
  by_cases ht : topic = topic'
  · subst ht
    rw [if_pos rfl, KeyMap.at₂?_within]
    by_cases hh : host = host'
    · subst hh
      rw [if_pos rfl, KeyMap.get?_put]
      by_cases hp : port = port'
      · subst hp
        rw [if_pos rfl, if_pos ⟨rfl, rfl, rfl⟩, KeyMap.at₂?_eq]
      · rw [if_neg hp, if_neg (fun h => hp h.2.2), KeyMap.at₂?_eq]
    · rw [if_neg hh, if_neg (fun h => hh h.2.1)]
  · rw [if_neg ht, if_neg (fun h => ht h.1)]

end RouteTable

end TopicMesh
