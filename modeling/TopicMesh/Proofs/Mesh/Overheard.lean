import TopicMesh.Proofs.Broker.Queues
import TopicMesh.Proofs.Mesh.Turns
import TopicMesh.Proofs.Node.Saying

/-!
# Payloads that are taken for announcements

Announcements and the payloads of owners go through the same broker.  A node **heeds** a
topic if it takes what comes on it for an announcement of another node
(`DiscoveryConfig.Heeds`).  Nobody can subscribe such a topic, but questions and answers
go to any topic, and publications to any topic that somebody is known to serve at the
broker.

Whatever has happened in a mesh, what one node says changes what another one holds of
the rest, its ports and routes, **just if the broker relays it to the other on a topic
that the other heeds** (`unheeded_iff`).  If it does, the payload is taken in like an
announcement (`view_said_of_exposed`); if not, the other one ends up with what it would
hold anyway, in whatever order the deliveries are processed (`view_said_of_sheltered`).
-/

namespace TopicMesh

open Node Act

/-! ## What a node holds of others -/

/-- Whether what comes on a topic is taken for an announcement of another node. -/
def DiscoveryConfig.Heeds (c : DiscoveryConfig) (topic : String) : Prop :=
  c.isDiscoveryTopic topic = true ∧ topic ≠ c.nodeTopic

/-- What a node holds of others: the ports it remembers, and its routes. -/
def Node.view (n : Node) : Discovery × RouteTable Nat :=
  (n.discovery, n.table)

/-- An announcement that a host serves a topic. -/
def Announcement.serving (protocol : Protocol) : Announcement :=
  ⟨.connected, "h", KeyMap.empty.insert "t" ⟨protocol, 7000⟩⟩

theorem Announcement.exists_payload_serving (protocol : Protocol) :
    ∃ payload, decode payload = .ok (serving protocol) := by
  have fits : (serving protocol).Fits := by cases protocol <;> exact ⟨by decide, by decide, by decide⟩
  have written : (serving protocol).encode = .ok (serving protocol).toPack.write :=
    encode_ok (show "h" ≠ "" by decide) (by cases protocol <;> decide)
  exact ⟨_, decode_encode fits written⟩

namespace Discovery

variable {c : DiscoveryConfig} {m : Message}

/-- What is held of others after a frame. -/
def overhear (c : DiscoveryConfig) (v : Discovery × RouteTable Nat) :
    ServerFrame → Discovery × RouteTable Nat
  | .deliver m =>
    if c.isDiscoveryTopic m.topic then
      match heard? c m.topic m.payload with
      | .ok (some a) => v.1.absorbInto v.2 m.topic a
      | _ => v
    else v
  | _ => v

theorem overhear_of_not_heeds (unheeded : ¬c.Heeds m.topic) (v : Discovery × RouteTable Nat) :
    overhear c v (.deliver m) = v := by
  unfold overhear
  dsimp only
  split
  · next on =>
    have own : m.topic = c.nodeTopic := not_not.1 fun other => unheeded ⟨on, other⟩
    have silent : heard? c m.topic m.payload = .ok none := by
      rw [heard?, if_pos (by simp [own])]
    rw [silent]
  · rfl

theorem overhear_of_heeds (heeds : c.Heeds m.topic) {a : Announcement}
    (reads : Announcement.decode m.payload = .ok a) (v : Discovery × RouteTable Nat) :
    overhear c v (.deliver m) = v.1.absorbInto v.2 m.topic a := by
  have nonempty : m.payload ≠ [] := by
    intro empty
    rw [empty] at reads
    cases reads
  have heard : heard? c m.topic m.payload = .ok (some a) := by
    rw [heard?, if_neg (by simpa using ⟨nonempty, heeds.2⟩), reads]
    rfl
  unfold overhear
  dsimp only
  rw [if_pos heeds.1, heard]

/-- **On a topic that is heeded some payload changes what is held**, whatever that is: two
announcements that contradict each other cannot both leave it as it is. -/
theorem exists_telling (v : Discovery × RouteTable Nat) {topic : String} (heeds : c.Heeds topic) :
    ∃ payload, ∀ m : Message, m.topic = topic → m.payload = payload →
      overhear c v (.deliver m) ≠ v := by
  obtain ⟨stream, reads⟩ := Announcement.exists_payload_serving .stream
  obtain ⟨datagram, reads'⟩ := Announcement.exists_payload_serving .datagram
  by_contra none_tells
  push Not at none_tells
  have serves : ∀ protocol payload, Announcement.decode payload = .ok (.serving protocol) →
      ∃ r, v.2.route? "t" "h" 7000 = some r ∧ r.protocol = protocol := by
    intro protocol payload reads
    obtain ⟨m, on, carries, same⟩ := none_tells payload
    subst on carries
    have follows := follows_absorbInto v.1 v.2 m.topic (.serving protocol)
    rw [← overhear_of_heeds heeds reads, same] at follows
    exact follows "t" ⟨protocol, 7000⟩ (by cases protocol <;> decide)
  obtain ⟨r, found, is⟩ := serves .stream stream reads
  obtain ⟨r', found', is'⟩ := serves .datagram datagram reads'
  cases found.symm.trans found'
  cases is.symm.trans is'

end Discovery

namespace Node

variable {n : Node}

theorem view_onFrame (n : Node) (frame : ServerFrame) :
    (n.onFrame frame).view = Discovery.overhear n.config.discovery n.view frame := by
  cases frame with
  | deliver m =>
    show (n.onMessage m).view = _
    unfold onMessage Discovery.overhear
    dsimp only
    split
    · obtain ⟨sessions, is⟩ := n.hear_eq m.topic m.payload
      rw [is]
      show n.viewAfter m.topic m.payload = _
      unfold viewAfter view
      cases Discovery.heard? n.config.discovery m.topic m.payload with
      | error e => rfl
      | ok heard => cases heard <;> rfl
    · obtain ⟨finished, chores, invoked, is⟩ := n.deliver_eq (.ofMessage m)
      rw [is]
      rfl
  | _ => rfl

/-- What comes from inside a node or over the direct network. -/
def Deed.Inward : Deed → Prop
  | edit _ | forgetTopic _ | arrival _ | occurrence _ _ _ | sessionEnd _ | sessionFailure _ _ => True
  | _ => False

theorem onOccurrence_keeps (n : Node) (topic peer : String) (o : Session.Occurrence) :
    (n.onOccurrence topic peer o).config = n.config ∧ (n.onOccurrence topic peer o).line = n.line := by
  unfold onOccurrence
  split
  · exact ⟨rfl, rfl⟩
  · split <;> exact ⟨rfl, rfl⟩
  · next f =>
    obtain ⟨finished, chores, invoked, is⟩ := n.deliver_eq (.ofFrame topic f)
    rw [is]
    exact ⟨rfl, rfl⟩
  · exact ⟨rfl, rfl⟩

theorem onSessionEnd_keeps (n : Node) (session : Nat) :
    (n.onSessionEnd session).config = n.config ∧ (n.onSessionEnd session).line = n.line := by
  unfold onSessionEnd
  cases n.sessions.get? session <;> exact ⟨rfl, rfl⟩

theorem failSession_keeps (n : Node) (session : Nat) (reason : String) :
    (n.failSession session reason).config = n.config ∧
      (n.failSession session reason).line = n.line := by
  unfold failSession
  cases n.sessions.get? session with
  | none => exact ⟨rfl, rfl⟩
  | some s =>
    dsimp only
    split
    · exact ⟨rfl, rfl⟩
    · obtain ⟨config, line⟩ := n.onOccurrence_keeps s.topic s.peer (.closed (.failed reason))
      obtain ⟨config', line'⟩ :=
        onSessionEnd_keeps (n.onOccurrence s.topic s.peer (.closed (.failed reason))) session
      exact ⟨config'.trans config, line'.trans line⟩

theorem Deed.inward_keeps {d : Deed} (inward : d.Inward) (s : Station) :
    (d.result s).config = s.node.config ∧ (d.result s).line = s.node.line := by
  cases d with
  | edit e => exact ⟨rfl, rfl⟩
  | forgetTopic topic => exact ⟨rfl, rfl⟩
  | arrival d =>
    obtain ⟨finished, chores, invoked, is⟩ := s.node.deliver_eq d
    rw [Deed.result, is]
    exact ⟨rfl, rfl⟩
  | occurrence topic peer o => exact s.node.onOccurrence_keeps topic peer o
  | sessionEnd session => exact s.node.onSessionEnd_keeps session
  | sessionFailure session reason => exact s.node.failSession_keeps session reason
  | _ => exact inward.elim

end Node

namespace Mesh

variable {m : Mesh} {id speaker listener : String} {n : Node}

/-! ## Deliveries -/

/-- **What is processed**: the oldest frame of an inbox, or the payloads on the direct
network. -/
inductive Passing
  | frame (inbox : Nat)
  | arrivals

namespace Passing

/-- The mesh afterwards. -/
def result (m : Mesh) : Passing → Mesh
  | frame inbox => (m.handFrom? inbox).getD m
  | arrivals => m.handArrivals

/-- The inbox that a frame is taken from. -/
def inbox? : Passing → Option Nat
  | frame inbox => some inbox
  | arrivals => none

end Passing

/-- The mesh after some deliveries. -/
def passed (m : Mesh) (order : List Passing) : Mesh :=
  order.foldl Passing.result m

/-- Whether nothing waits to be delivered. -/
def Idle (m : Mesh) : Prop :=
  m.network.arrivals = [] ∧ ∀ inbox, m.hub.framesIn inbox = []

/-- What a node of the mesh holds of others. -/
def viewOf (m : Mesh) (id : String) : Option (Discovery × RouteTable Nat) :=
  (m.nodes.get? id).map Node.view

theorem hub_passed (m : Mesh) (order : List Passing) :
    (m.passed order).hub = m.hub.pops (order.filterMap Passing.inbox?) := by
  induction order generalizing m with
  | nil => rfl
  | cons passing rest ih =>
    show ((passing.result m).passed rest).hub = _
    rw [ih]
    cases passing with
    | arrivals => rfl
    | frame inbox =>
      show Hub.pops ((m.hub.pop? inbox).map m.hand |>.getD m).hub _ = Hub.pops (m.hub.popped inbox) _
      unfold Hub.popped
      cases m.hub.pop? inbox <;> rfl

theorem arrivals_passed_frames (m : Mesh) (inboxes : List Nat) :
    (m.passed (inboxes.map Passing.frame)).network = m.network := by
  induction inboxes generalizing m with
  | nil => rfl
  | cons inbox rest ih =>
    show (((Passing.frame inbox).result m).passed _).network = _
    rw [ih]
    show ((m.hub.pop? inbox).map m.hand |>.getD m).network = _
    cases m.hub.pop? inbox <;> rfl

/-- What comes over the direct network goes to callbacks. -/
theorem map_handArrivals {α : Type} {f : Node → α} (blind : ∀ n d, f (n.deliver d) = f n)
    (m : Mesh) (id : String) : (m.handArrivals.nodes.get? id).map f = (m.nodes.get? id).map f := by
  show ((m.network.arrivals.foldl (fun nodes a => nodes.modify a.node fun n =>
    n.deliver (.direct a.topic a.payload a.protocol)) m.nodes).get? id).map f = _
  generalize m.nodes = nodes
  induction m.network.arrivals generalizing nodes with
  | nil => rfl
  | cons a rest ih =>
    rw [List.foldl_cons, ih, KeyMap.get?_modify]
    split
    · rw [Option.map_map]
      exact congrArg (Option.map · _) (funext fun n => blind n _)
    · rfl

/-- What a frame from an inbox does to what a node holds. -/
theorem viewed_frame (m : Mesh) (id : String) (inbox : Nat) :
    (((Passing.frame inbox).result m).nodes.get? id).map (fun n => (n.config, n.view)) =
      (m.nodes.get? id).map fun n =>
        (n.config, (m.hub.gets id inbox).foldl (Discovery.overhear n.config.discovery) n.view) := by
  show (((m.hub.pop? inbox).map m.hand |>.getD m).nodes.get? id).map _ = _
  cases popped : m.hub.pop? inbox with
  | none =>
    have nothing : m.hub.gets id inbox = [] := by
      rw [Hub.gets, Hub.pop?_eq_none_iff.1 popped, List.take_nil, ite_self]
    rw [nothing]
    rfl
  | some taken =>
    obtain ⟨hub, client, frame⟩ := taken
    have owner := (Hub.ownerOf?_of_pop? popped inbox).2
    have queue := Hub.framesIn_of_pop? popped inbox
    rw [if_pos rfl] at queue
    show ((m.hand (hub, client, frame)).nodes.get? id).map _ = _
    rw [get?_hand, Hub.gets, owner, queue]
    by_cases own : client = id
    · subst own
      rw [if_pos rfl, if_pos rfl, Option.map_map]
      refine congrArg (Option.map · _) (funext fun n => ?_)
      obtain ⟨config, -⟩ := n.onFrame_keeps frame
      exact Prod.ext config (n.view_onFrame frame)
    · rw [if_neg own, if_neg fun same => own (Option.some.inj same)]
      rfl

/-- **What a node holds after some deliveries** depends on the frames that it has taken. -/
theorem viewed_passed (m : Mesh) (id : String) (order : List Passing) :
    ((m.passed order).nodes.get? id).map (fun n => (n.config, n.view)) =
      (m.nodes.get? id).map fun n =>
        (n.config, (m.hub.taken id (order.filterMap Passing.inbox?)).foldl
          (Discovery.overhear n.config.discovery) n.view) := by
  induction order generalizing m with
  | nil => rfl
  | cons passing rest ih =>
    show (((passing.result m).passed rest).nodes.get? id).map _ = _
    have through : ∀ (m' : Mesh) (frames : List ServerFrame),
        (m'.nodes.get? id).map (fun n =>
          (n.config, frames.foldl (Discovery.overhear n.config.discovery) n.view)) =
        ((m'.nodes.get? id).map fun n => (n.config, n.view)).map fun v =>
          (v.1, frames.foldl (Discovery.overhear v.1.discovery) v.2) := fun m' frames => by
      rw [Option.map_map]
      rfl
    rw [ih, through]
    cases passing with
    | arrivals =>
      show (m.handArrivals.nodes.get? id |>.map _).map _ = _
      have blind : ∀ (n : Node) d, ((n.deliver d).config, (n.deliver d).view) = (n.config, n.view) :=
        fun n d => by
          obtain ⟨finished, chores, invoked, is⟩ := n.deliver_eq d
          rw [is]
          rfl
      rw [map_handArrivals (f := fun n => (n.config, n.view)) blind, ← through]
      rfl
    | frame inbox =>
      rw [viewed_frame, Option.map_map]
      refine congrArg (Option.map · _) (funext fun n => ?_)
      have hub : ((Passing.frame inbox).result m).hub = m.hub.popped inbox := m.hub_passed [.frame inbox]
      show (_, List.foldl _ (List.foldl _ _ _) _) = (_, List.foldl _ _ (Hub.taken id m.hub (inbox :: _)))
      rw [hub, Hub.taken, List.foldl_append]

theorem viewOf_passed (m : Mesh) (id : String) (order : List Passing) :
    (m.passed order).viewOf id = (m.nodes.get? id).map fun n =>
      (m.hub.taken id (order.filterMap Passing.inbox?)).foldl
        (Discovery.overhear n.config.discovery) n.view := by
  have views := congrArg (Option.map Prod.snd) (viewed_passed m id order)
  rw [Option.map_map, Option.map_map] at views
  exact views

/-! ## What is said -/

/-- The mesh after a node's owner has said something. -/
def said (m : Mesh) (id : String) (saying : Saying) (payload : Bytes) : Mesh :=
  (m.perform id (saying.act payload)).1

/-- Whether the broker relays to a listener, on a topic, what a speaker says. -/
structure Relays (m : Mesh) (speaker : String) (saying : Saying) (listener topic : String) : Prop where
  speaks : ∃ s, m.nodes.get? speaker = some s ∧ s.line.isConnected m.hub = true ∧
    saying.topic? s = some topic
  registered : (m.hub.inboxOf listener).isSome = true
  owns : m.hub.broker.owns topic listener = true

/-- Whether a listener takes what a speaker says for an announcement of another node. -/
def Exposed (m : Mesh) (speaker : String) (saying : Saying) (listener : String) : Prop :=
  ∃ topic n, m.Relays speaker saying listener topic ∧ m.nodes.get? listener = some n ∧
    n.config.discovery.Heeds topic

theorem get?_said (m : Mesh) (saying : Saying) (payload : Bytes) (apart : speaker ≠ listener) :
    (m.said speaker saying payload).nodes.get? listener = m.nodes.get? listener := by
  unfold said
  cases found : m.nodes.get? speaker with
  | none => rw [perform_of_none found]
  | some n =>
    rw [perform_of_get? found]
    exact (KeyMap.get?_insert ..).trans (if_neg apart)

/-- The hub after something was said: it relays one message, or none, and is for a
listener as it was otherwise. -/
theorem hub_said_for (orderly : m.Orderly) (apart : speaker ≠ listener) {s : Node}
    (found : m.nodes.get? speaker = some s) (saying : Saying) (payload : Bytes) :
    ∃ hub : Hub, hub.Sound ∧ (∀ inbox, m.hub.Ahead listener inbox none hub) ∧
      hub.inboxOf listener = m.hub.inboxOf listener ∧
      (∀ topic, hub.broker.owns topic listener = m.hub.broker.owns topic listener) ∧
      (m.said speaker saying payload).hub =
        if s.line.isConnected m.hub then
          (saying.topic? s).elim hub fun topic => hub.publish (saying.message s payload topic)
        else hub := by
  obtain ⟨hub, which, is⟩ := hub_said (s := m.station speaker s) (orderly.steady speaker) saying payload
  have named : s.id = speaker := orderly.named speaker s found
  have client : s.line.client = speaker := (orderly.moored speaker s found).client.trans named
  have said : (m.said speaker saying payload).hub =
      (after (saying.act payload) (m.station speaker s)).hub := by
    rw [Mesh.said, perform_of_get? found]
  rcases which with rfl | ⟨filter, qos, rfl⟩
  · exact ⟨_, orderly.sound, fun inbox => .refl listener inbox m.hub, rfl, fun _ => rfl, said.trans is⟩
  · -- the answers are subscribed, which does not matter to the listener
    have other : s.line.client ≠ listener := client ▸ apart
    exact ⟨_, Hub.sound_subscribe filter s.line.client qos orderly.sound,
      Hub.ahead_subscribe orderly.sound filter qos other, Hub.inboxOf_subscribe ..,
      Hub.owns_subscribe orderly.sound filter qos other, said.trans is⟩

/-- **What is relayed puts the hub ahead for the listener.** -/
theorem ahead_said_of_relays (orderly : m.Orderly) (apart : speaker ≠ listener) {saying : Saying}
    {topic : String} (relays : m.Relays speaker saying listener topic) (payload : Bytes) :
    ∃ inbox message, m.hub.inboxOf listener = some inbox ∧ message.topic = topic ∧
      message.payload = payload ∧
      m.hub.Ahead listener inbox (some (.deliver message)) (m.said speaker saying payload).hub := by
  obtain ⟨⟨s, found, up, on⟩, registered, owns⟩ := relays
  obtain ⟨inbox, reads⟩ := Option.isSome_iff_exists.1 registered
  obtain ⟨hub, sound, before, reads', owns', is⟩ := hub_said_for orderly apart found saying payload
  obtain ⟨topic_eq, payload_eq⟩ := saying.message_keeps s payload topic
  rw [up, if_pos rfl, on, Option.elim_some] at is
  have ahead := Hub.ahead_publish sound (saying.message s payload topic) listener inbox
  rw [reads', reads, topic_eq, owns', owns, Option.getD_some, if_pos ⟨rfl, rfl⟩] at ahead
  refine ⟨inbox, _, reads, ?_, ?_, is ▸ (before inbox).trans ahead⟩
  · exact (Hub.stamp_topic ..).trans topic_eq
  · exact (Hub.stamp_payload ..).trans payload_eq

/-- **What is not relayed to a listener does not matter to it.** -/
theorem ahead_said_of_not_relays (orderly : m.Orderly) (apart : speaker ≠ listener)
    {saying : Saying} (unheard : ∀ topic, ¬m.Relays speaker saying listener topic)
    (payload : Bytes) :
    ∃ inbox, m.hub.Ahead listener inbox none (m.said speaker saying payload).hub := by
  cases found : m.nodes.get? speaker with
  | none =>
    rw [Mesh.said, perform_of_none found]
    exact ⟨0, .refl ..⟩
  | some s =>
    obtain ⟨hub, sound, before, reads, owns, is⟩ := hub_said_for orderly apart found saying payload
    cases up : s.line.isConnected m.hub with
    | false =>
      rw [up, if_neg Bool.false_ne_true] at is
      exact ⟨0, is ▸ before 0⟩
    | true =>
      rw [up, if_pos rfl] at is
      cases on : saying.topic? s with
      | none =>
        rw [on] at is
        exact ⟨0, is ▸ before 0⟩
      | some topic =>
        rw [on, Option.elim_some] at is
        have ahead := Hub.ahead_publish sound (saying.message s payload topic) listener 0
        rw [if_neg fun both => unheard topic ⟨⟨s, found, up, on⟩, reads ▸ both.1, ?_⟩] at ahead
        · exact ⟨_, is ▸ (before _).trans ahead⟩
        · rw [← owns, ← (saying.message_keeps s payload topic).1]
          exact both.2

/-- **A sheltered listener ends up with what it would hold anyway**, whatever is said and
in whatever order the deliveries are processed. -/
theorem view_said_of_sheltered (orderly : m.Orderly) (apart : speaker ≠ listener) {saying : Saying}
    (sheltered : ¬m.Exposed speaker saying listener) (payload : Bytes) (order : List Passing) :
    ((m.said speaker saying payload).passed order).viewOf listener =
      (m.passed order).viewOf listener := by
  rw [viewOf_passed, viewOf_passed, get?_said m saying payload apart]
  cases found : m.nodes.get? listener with
  | none => rfl
  | some n =>
    refine congrArg some ?_
    dsimp only
    by_cases relays : ∃ topic, m.Relays speaker saying listener topic
    · obtain ⟨topic, relays⟩ := relays
      obtain ⟨inbox, message, -, on, -, ahead⟩ := ahead_said_of_relays orderly apart relays payload
      obtain ⟨before, between, after, quiet, told, which⟩ :=
        Hub.taken_of_ahead (order.filterMap Passing.inbox?) ahead
      have unheeded : ¬n.config.discovery.Heeds message.topic := fun heeds =>
        sheltered ⟨topic, n, relays, found, on ▸ heeds⟩
      -- the message passes without a trace
      have passes : ∀ v, between.foldl (Discovery.overhear n.config.discovery) v = v := by
        intro v
        rcases which with rfl | rfl
        · rfl
        · exact Discovery.overhear_of_not_heeds unheeded v
      rw [quiet, told, List.foldl_append, List.foldl_append, List.foldl_append, passes]
    · push Not at relays
      obtain ⟨inbox, ahead⟩ := ahead_said_of_not_relays orderly apart relays payload
      obtain ⟨before, between, after, quiet, told, which⟩ :=
        Hub.taken_of_ahead (order.filterMap Passing.inbox?) ahead
      have nothing : between = [] := which.elim id id
      rw [quiet, told, nothing, List.append_nil]

theorem inboxes_frames (order : List Nat) :
    (.arrivals :: order.map .frame : List Passing).filterMap Passing.inbox? = order := by
  show (order.map Passing.frame).filterMap Passing.inbox? = _
  rw [List.filterMap_map]
  exact List.filterMap_some

/-- **A listener takes what is relayed to it in like any frame**, after whatever else waits
for it, if the deliveries are processed in some order. -/
theorem view_said_of_relays (orderly : m.Orderly) (apart : speaker ≠ listener) {saying : Saying}
    {topic : String} (relays : m.Relays speaker saying listener topic)
    (found : m.nodes.get? listener = some n) :
    ∃ v, ∀ payload, ∃ order message, message.topic = topic ∧ message.payload = payload ∧
      ((m.said speaker saying payload).passed order).Idle ∧
      (m.passed order).viewOf listener = some v ∧
      ((m.said speaker saying payload).passed order).viewOf listener =
        some (Discovery.overhear n.config.discovery v (.deliver message)) := by
  obtain ⟨inbox, reads⟩ := Option.isSome_iff_exists.1 relays.registered
  refine ⟨(m.hub.taken listener (m.hub.orderTo inbox)).foldl
    (Discovery.overhear n.config.discovery) n.view, fun payload => ?_⟩
  obtain ⟨inbox', message, reads', on, carries, ahead⟩ :=
    ahead_said_of_relays orderly apart relays payload
  obtain rfl : inbox = inbox' := Option.some.inj (reads.symm.trans reads')
  obtain ⟨order, quiet, told, idle⟩ :=
    Hub.exists_taken_at_last ahead (orderly.sound.ownerOf?_of_inboxOf reads)
  refine ⟨.arrivals :: order.map .frame, message, on, carries, ⟨?_, fun other => ?_⟩, ?_, ?_⟩
  · show (((m.said speaker saying payload).handArrivals.passed (order.map .frame)).network).arrivals = []
    rw [arrivals_passed_frames]
    rfl
  · rw [hub_passed, inboxes_frames]
    exact idle other
  · rw [viewOf_passed, found, inboxes_frames, quiet]
    rfl
  · rw [viewOf_passed, get?_said m saying payload apart, found, inboxes_frames, told, Option.map_some,
      List.foldl_append]
    rfl

/-! ## Everything that happens in a mesh -/

/-- **What happens in a mesh.** -/
inductive Episode
  | turn (t : Turn)
  /-- A node's owner says something. -/
  | say (id : String) (saying : Saying) (payload : Bytes)
  /-- The payloads on the direct network are delivered. -/
  | arrivals
  /-- Something happens inside a node. -/
  | befall (id : String) (d : Node.Deed)

namespace Episode

/-- The mesh afterwards. -/
def result (m : Mesh) : Episode → Mesh
  | turn t => t.result m
  | say id saying payload => m.said id saying payload
  | arrivals => m.handArrivals
  | befall id d => { m with nodes := m.nodes.modify id fun n => d.result (m.station id n) }

/-- Whether an episode is what it is meant to be: no line call fails by itself, and what
happens inside a node comes from there. -/
def Proper : Episode → Prop
  | turn t => t.Steady
  | befall _ d => d.Inward
  | _ => True

end Episode

/-- The mesh after some episodes. -/
def lived (m : Mesh) (episodes : List Episode) : Mesh :=
  episodes.foldl Episode.result m

/-- Changes inside nodes leave a mesh orderly. -/
theorem Orderly.inside (orderly : m.Orderly) {m' : Mesh} (hub : m'.hub = m.hub)
    (outage : m'.outage = m.outage)
    (same : ∀ id n', m'.nodes.get? id = some n' →
      ∃ n, m.nodes.get? id = some n ∧ n'.config = n.config ∧ n'.line = n.line) : m'.Orderly := by
  refine ⟨hub ▸ orderly.sound, fun id n' found => ?_, fun id n' found => ?_, outage ▸ orderly.steady⟩
  · obtain ⟨n, there, config, -⟩ := same id n' found
    rw [Node.id, config]
    exact orderly.named id n there
  · obtain ⟨n, there, config, line⟩ := same id n' found
    refine (orderly.moored id n there).congr config line ?_
    show m'.hub.broker.clients.get? _ = _
    rw [hub]
    rfl

/-- What the owner of a node publishes leaves a mesh orderly. -/
theorem orderly_published (orderly : m.Orderly) (id topic : String) (payload : Bytes)
    (protocols : ProtocolSet) (qos : QoS) (retain : Bool) :
    (m.said id (.publish topic protocols qos retain) payload).Orderly := by
  cases found : m.nodes.get? id with
  | none =>
    rw [said, perform_of_none found]
    exact orderly
  | some n =>
    obtain ⟨config, line, -, hub⟩ := publish_effect topic payload protocols qos retain (m.station id n)
    rw [said, perform_of_get? found]
    show Orderly { m with
      hub := (after (Node.publish topic payload protocols qos retain) (m.station id n)).hub
      network := _
      nodes := m.nodes.insert id
        (after (Node.publish topic payload protocols qos retain) (m.station id n)).node }
    generalize after (Node.publish topic payload protocols qos retain) (m.station id n) = s at *
    have clients : s.hub.broker.clients = m.hub.broker.clients := by
      rw [hub]
      split <;> rfl
    have sound : s.hub.Sound := by
      rw [hub]
      split
      · exact Hub.sound_publish orderly.sound _
      · exact orderly.sound
    have before : ∀ other n', (m.nodes.insert id s.node).get? other = some n' →
        ∃ n, m.nodes.get? other = some n ∧ n'.config = n.config ∧ n'.line = n.line := by
      intro other n' found'
      rw [KeyMap.get?_insert] at found'
      split at found'
      · next same =>
        cases found'
        exact ⟨n, same ▸ found, config, line⟩
      · exact ⟨n', found', rfl, rfl⟩
    refine ⟨sound, fun other n' found' => ?_, fun other n' found' => ?_, orderly.steady⟩
    · obtain ⟨n, there, config, -⟩ := before other n' found'
      rw [Node.id, config]
      exact orderly.named other n there
    · obtain ⟨n, there, config, line⟩ := before other n' found'
      refine (orderly.moored other n there).congr config line ?_
      show s.hub.broker.clients.get? _ = _
      rw [clients]
      rfl

theorem orderly_episode (orderly : m.Orderly) {e : Episode} (proper : e.Proper) :
    (e.result m).Orderly := by
  cases e with
  | turn t => exact orderly_turn orderly proper
  | say id saying payload =>
    cases saying with
    | publish topic protocols qos retain =>
      exact orderly_published orderly id topic payload protocols qos retain
    | request topic qos correlation callback =>
      exact orderly_work orderly id (.request topic payload qos correlation callback)
    | reply d isLast => exact orderly_work orderly id (.reply d payload isLast)
  | arrivals =>
    have blind : ∀ (n : Node) d, ((n.deliver d).config, (n.deliver d).line) = (n.config, n.line) :=
      fun n d => by
        obtain ⟨finished, chores, invoked, is⟩ := n.deliver_eq d
        rw [is]
        rfl
    refine orderly.inside rfl rfl fun id n' found => ?_
    have same := map_handArrivals (f := fun n => (n.config, n.line)) blind m id
    rw [show m.handArrivals.nodes.get? id = some n' from found] at same
    obtain ⟨n, there, is⟩ := Option.map_eq_some_iff.1 same.symm
    exact ⟨n, there, (congrArg Prod.fst is).symm, (congrArg Prod.snd is).symm⟩
  | befall id d =>
    refine orderly.inside rfl rfl fun other n' found => ?_
    have found : (m.nodes.modify id fun n => d.result (m.station id n)).get? other = some n' := found
    rw [KeyMap.get?_modify] at found
    split at found
    · obtain ⟨n, there, rfl⟩ := Option.map_eq_some_iff.1 found
      obtain ⟨config, line⟩ := d.inward_keeps proper (m.station id n)
      exact ⟨n, there, config, line⟩
    · exact ⟨n', found, rfl, rfl⟩

theorem orderly_lived (configs : List NodeConfig) (now : Int64) (firstPort : UInt16)
    {episodes : List Episode} (proper : ∀ e ∈ episodes, e.Proper) :
    ((new configs now firstPort).lived episodes).Orderly := by
  have run : ∀ m : Mesh, m.Orderly → (m.lived episodes).Orderly := by
    induction episodes with
    | nil => exact fun m orderly => orderly
    | cons e rest ih =>
      exact fun m orderly => ih (fun e' there => proper e' (List.mem_cons_of_mem e there)) _
        (orderly_episode orderly (proper e List.mem_cons_self))
  exact run _ (orderly_new configs now firstPort)

/-- **What one node says leaves what another one holds of the rest as it was, whatever the
payload, just if the other does not take it for an announcement**: either the broker does
not relay it there, or its topic is not heeded there. -/
theorem unheeded_iff (configs : List NodeConfig) (now : Int64) (firstPort : UInt16)
    {episodes : List Episode} (proper : ∀ e ∈ episodes, e.Proper) {speaker listener : String}
    (apart : speaker ≠ listener) (saying : Saying) :
    let m := (new configs now firstPort).lived episodes
    (∀ payload order, ((m.said speaker saying payload).passed order).Idle →
      ((m.said speaker saying payload).passed order).viewOf listener =
        (m.passed order).viewOf listener) ↔
      ¬m.Exposed speaker saying listener := by
  intro m
  have orderly : m.Orderly := orderly_lived configs now firstPort proper
  refine ⟨fun unheeded exposed => ?_, fun sheltered payload order _ =>
    view_said_of_sheltered orderly apart sheltered payload order⟩
  obtain ⟨topic, n, relays, found, heeds⟩ := exposed
  obtain ⟨v, hears⟩ := view_said_of_relays orderly apart relays found
  obtain ⟨payload, tells⟩ := Discovery.exists_telling v heeds
  obtain ⟨order, message, on, carries, idle, quiet, told⟩ := hears payload
  have same := unheeded payload order idle
  rw [quiet, told] at same
  exact tells message on carries (Option.some.inj same)

/-- Two nodes join, and the second one subscribes everything. -/
def eavesdropping : List Episode :=
  [.turn (.work "a" (.call .connect)), .turn (.work "b" (.call .connect)),
    .turn (.work "b" (.call (.subscribe "#" ⟨"all", none⟩ (.only .broker) .atMostOnce)))]

theorem proper_eavesdropping : ∀ e ∈ eavesdropping, e.Proper := by
  simp [eavesdropping, Episode.Proper, Turn.Steady]

/-- A question of the first on any topic is relayed to the second. -/
theorem relays_eavesdropping (topic : String) (named : topic ≠ "")
    (owns : ((new pair 0 7000).lived eavesdropping).hub.broker.owns topic "b" = true) :
    ((new pair 0 7000).lived eavesdropping).Relays "a"
      (.request topic .atMostOnce none "c") "b" topic := by
  obtain ⟨s, found⟩ : ∃ s, ((new pair 0 7000).lived eavesdropping).nodes.get? "a" = some s :=
    Option.isSome_iff_exists.1 (by decide +kernel)
  have up : s.line.isConnected ((new pair 0 7000).lived eavesdropping).hub = true := by
    have : (((new pair 0 7000).lived eavesdropping).nodes.get? "a").map (fun n =>
        n.line.isConnected ((new pair 0 7000).lived eavesdropping).hub) = some true := by
      decide +kernel
    rw [found] at this
    exact Option.some.inj this
  exact ⟨⟨s, found, up, if_pos named⟩, by decide +kernel, owns⟩

/-- A question that is relayed to a node matters to what it holds if its topic is one for
announcements, and not if it is any other. -/
theorem unheeded_elsewhere :
    let m := (new pair 0 7000).lived eavesdropping
    let asks (topic : String) : Saying := .request topic .atMostOnce none "c"
    (∀ e ∈ eavesdropping, e.Proper) ∧ "a" ≠ "b" ∧
      m.Relays "a" (asks "t") "b" "t" ∧ m.Relays "a" (asks "/d/evil") "b" "/d/evil" ∧
      (∀ payload order, ((m.said "a" (asks "t") payload).passed order).Idle →
        ((m.said "a" (asks "t") payload).passed order).viewOf "b" = (m.passed order).viewOf "b") ∧
      ¬∀ payload order, ((m.said "a" (asks "/d/evil") payload).passed order).Idle →
        ((m.said "a" (asks "/d/evil") payload).passed order).viewOf "b" =
          (m.passed order).viewOf "b" := by
  intro m asks
  have apart : "a" ≠ "b" := by decide
  have plain := relays_eavesdropping "t" (by decide) (by decide +kernel)
  have evil := relays_eavesdropping "/d/evil" (by decide) (by decide +kernel)
  obtain ⟨n, found⟩ : ∃ n, m.nodes.get? "b" = some n :=
    Option.isSome_iff_exists.1 (by decide +kernel)
  have heeds : n.config.discovery.Heeds "/d/evil" ∧ ¬n.config.discovery.Heeds "t" := by
    have : (m.nodes.get? "b").map (fun n =>
        (n.config.discovery.isDiscoveryTopic "/d/evil", n.config.discovery.nodeTopic,
          n.config.discovery.isDiscoveryTopic "t")) = some (true, "/d/b", false) := by
      decide +kernel
    rw [found] at this
    have all := Option.some.inj this
    refine ⟨⟨congrArg Prod.fst all, ?_⟩, fun heeds => ?_⟩
    · rw [show n.config.discovery.nodeTopic = "/d/b" from congrArg (fun v => v.2.1) all]
      decide
    · cases heeds.1.symm.trans (congrArg (fun v => v.2.2) all)
  refine ⟨proper_eavesdropping, apart, plain, evil, ?_, ?_⟩
  · refine (unheeded_iff pair 0 7000 proper_eavesdropping apart (asks "t")).2 ?_
    rintro ⟨topic, n', relays, found', heeded⟩
    obtain rfl : n = n' := Option.some.inj (found.symm.trans found')
    obtain ⟨s, -, -, on⟩ := relays.speaks
    obtain rfl : "t" = topic := Option.some.inj on
    exact heeds.2 heeded
  · intro unheeded
    exact (unheeded_iff pair 0 7000 proper_eavesdropping apart (asks "/d/evil")).1 unheeded
      ⟨"/d/evil", n, evil, found, heeds.1⟩

/-- The bytes of an announcement that a host serves a topic. -/
def forged : Bytes :=
  (Announcement.serving .stream).toPack.write

/-- A question puts a route into the table of another node. -/
theorem not_always_unheeded :
    ¬∀ (configs : List NodeConfig) (episodes : List Episode) (speaker listener : String)
      (saying : Saying) (payload : Bytes) (order : List Passing),
      let m := (new configs 0 7000).lived episodes
      (∀ e ∈ episodes, e.Proper) → speaker ≠ listener →
      ((m.said speaker saying payload).passed order).Idle →
      ((m.said speaker saying payload).passed order).viewOf listener =
        (m.passed order).viewOf listener := by
  intro always
  let joined : List Episode :=
    [.turn (.work "a" (.call .connect)), .turn (.work "b" (.call .connect))]
  let saying : Saying := .request "/d/evil" .atMostOnce none "c"
  let m := (new pair 0 7000).lived joined
  let order : List Passing := [.frame 0, .frame 1]
  have idle : ((m.said "a" saying forged).passed order).Idle :=
    ⟨by decide +kernel, Hub.framesIn_of_pending (by decide +kernel)⟩
  have same := always pair joined "a" "b" saying forged order
    (by simp [joined, Episode.Proper, Turn.Steady]) (by decide) idle
  have routes := congrArg (Option.map fun v => (v.2.route? "t" "h" 7000).isSome) same
  have differ : (((m.said "a" saying forged).passed order).viewOf "b").map
        (fun v => (v.2.route? "t" "h" 7000).isSome) ≠
      ((m.passed order).viewOf "b").map fun v => (v.2.route? "t" "h" 7000).isSome := by
    decide +kernel
  exact differ routes

end Mesh

end TopicMesh
