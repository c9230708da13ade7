import Mathlib.Logic.Relation
import TopicMesh.Proofs.Node.Lodging

/-!
# The course of a call

Whatever a node does for its owner it does in **moves** (`Move`): it publishes, opens or
closes one record, renews one subscription, or its line comes or goes.  A call is a
sequence of them (`Course`), whether it fails or not, and whatever the node is like.

A `License` says which moves a call may make: whose callbacks join which records, which
records end, what is published beside announcements, and whether the line may come and
go.  What every move keeps, every call keeps, so that this is the only place where calls
are taken apart.
-/

namespace TopicMesh

open Node Act

/-- What a node may do in the course of a call. -/
structure License where
  /-- Which callbacks may join the records of which topics. -/
  joins : String → Callback → Prop
  /-- The topics whose records may end. -/
  ends : String → Prop
  /-- The messages that may be published beside announcements. -/
  posts : Message → Prop
  /-- Whether the line may come and go. -/
  roams : Prop

/-- Whether a message is one by which a node announces itself. -/
def Node.Announces (n : Node) (m : Message) : Prop :=
  m.topic = n.config.discovery.nodeTopic ∧ m.reply = none

namespace Station

variable {L L' : License} {s s' s'' : Station}

/-- **One move of a node.** -/
inductive Move (L : License) (s : Station) : Station → Prop
  /-- Routes, sessions and announcements change, and what is reported. -/
  | aside (discovery : Discovery) (table : RouteTable Nat) (sessions : KeyMap Nat PeerSession)
    (nextSession : Nat) (events : List NodeEvent) (network : DirectNetwork) :
    Move L s
      { s with
        node := { s.node with
          discovery := discovery
          table := table
          sessions := sessions
          nextSession := nextSession
          events := events }
        network := network }
  | posted (m : Message) :
    s.isConnected = true → s.node.Announces m ∨ L.posts m →
    Move L s { s with hub := s.hub.publish m }
  /-- The discovery filter or the topic of a broker record is subscribed once more. -/
  | renewed (filter : String) (qos : QoS) :
    s.isConnected = true →
    (filter = s.node.config.discovery.filter ∨
      ∃ record, s.node.subscriptions.get? filter = some record ∧ record.endpoint = .broker) →
    Move L s { s with hub := s.hub.subscribe filter s.node.line.client qos }
  | joined (topic : String) (callback : Callback) (record : Subscription Callback) :
    s.node.subscriptions.get? topic = some record → L.joins topic callback →
    Move L s { s with node := s.node.withRecord topic (record.join callback) }
  | opened (topic : String) (callback : Callback) (endpoint : Endpoint) (qos : QoS)
    (advertised : Bool) (network : DirectNetwork) :
    s.isConnected = true → s.node.subscriptions.get? topic = none → L.joins topic callback →
    Move L s
      { s with
        node := s.node.withRecord topic ⟨[callback], endpoint, qos, advertised⟩
        hub := hubWith s topic qos endpoint
        network := network }
  | closed (topic : String) (record : Subscription Callback) (network : DirectNetwork) :
    s.node.subscriptions.get? topic = some record → L.ends topic →
    Move L s (closed s topic record network)
  /-- All records end. -/
  | emptied (network : DirectNetwork) :
    L.roams →
    Move L s
      { s with
        node := s.node.withSubscriptions .empty
        hub := hubWithoutAll s s.node.subscriptions.byTopic.entries
        network := network }
  /-- The will for the next greeting is set. -/
  | willed (will : Option Will) :
    (∀ w, will = some w → w.topic = s.node.config.discovery.nodeTopic) →
    Move L s { s with node := { s.node with line := { s.node.line with will := will } } }
  /-- The line is attached, and the records are renewed at the broker. -/
  | attached :
    L.roams → s.node.line.inbox = none →
    Move L s
      { s with
        node := { s.node with line := { s.node.line with inbox := some s.hub.nextInbox } }
        hub := renewed s.node.line.client s.node.subscriptions.brokerTopics
          (s.hub.register s.node.line.client s.node.line.will).1 }
  /-- The node takes leave of the broker. -/
  | detached (inbox : Nat) :
    L.roams → s.node.line.inbox = some inbox →
    Move L s
      { s with
        node := { s.node with line := { s.node.line with inbox := none } }
        hub := s.hub.cleanup s.node.line.client true }
  | lost (events : List NodeEvent) :
    L.roams → Move L s { s with node := s.node.cutOff events, hub := hubLost s }
  /-- The numbers of answers start again. -/
  | forgot :
    L.roams → Move L s { s with node := { s.node with replySequences := .empty } }

/-- **A sequence of moves.** -/
def Course (L : License) : Station → Station → Prop :=
  Relation.ReflTransGen (Move L)

theorem Course.refl (s : Station) : Course L s s :=
  Relation.ReflTransGen.refl

theorem Move.course (move : Move L s s') : Course L s s' :=
  Relation.ReflTransGen.single move

theorem Course.trans (first : Course L s s') (second : Course L s' s'') : Course L s s'' :=
  Relation.ReflTransGen.trans first second

/-- What every move keeps, a course keeps. -/
theorem Course.keeps {P : Station → Prop} (each : ∀ s s', Move L s s' → P s → P s')
    (course : Course L s s') (h : P s) : P s' := by
  induction course with
  | refl => exact h
  | tail _ move ih => exact each _ _ move ih

theorem Move.outage (move : Move L s s') : s'.outage = s.outage := by
  cases move <;> rfl

theorem Course.steady (course : Course L s s') (steady : s.Steady) : s'.Steady :=
  course.keeps (P := Steady) (fun _ _ move before call => move.outage ▸ before call) steady

end Station

namespace Node

variable {L : License} {s : Station} {α β : Type}

open Station

/-! ## Sequences -/

/-- A course goes on with the next act, if there is a next one. -/
theorem course_bind {act : Act α} {f : α → Act β} {s₀ : Station}
    (first : Course L s₀ (after act s))
    (next : ∀ a t, act s = .ok a t → Course L s₀ t → Course L s₀ (after (f a) t)) :
    Course L s₀ (after (act >>= f) s) := by
  cases run : act s with
  | ok a t =>
    rw [after_ok run] at first
    rw [after_bind_ok run]
    exact next a t run first
  | error e t =>
    rw [after_error run] at first
    rw [after_bind_error run]
    exact first

/-! ## Announcements -/

theorem announces_of_announce {n : Node} {a : Announcement} {m : Message}
    (h : n.config.discovery.announce a = .ok m) : n.Announces m := by
  unfold DiscoveryConfig.announce at h
  cases encodes : a.encode with
  | error e =>
    rw [encodes] at h
    cases h
  | ok payload =>
    rw [encodes] at h
    cases h
    exact ⟨rfl, rfl⟩

theorem course_post (steady : s.Steady) {m : Message} (may : s.node.Announces m ∨ L.posts m) :
    Course L s (after (post m) s) := by
  cases up : s.isConnected with
  | true =>
    rw [after_ok (post_connected steady up m)]
    exact (Move.posted m up may).course
  | false =>
    rw [after_error (post_lost steady up m)]
    exact .refl s

theorem course_say (steady : s.Steady) (a : Announcement) :
    Course L s (after (encoded (s.node.config.discovery.announce a) >>= fun m => post m) s) := by
  cases worded : s.node.config.discovery.announce a with
  | error e => exact .refl s
  | ok m => exact course_post steady (.inl (announces_of_announce worded))

theorem course_announce (steady : s.Steady) : Course L s (after announce s) :=
  course_say steady _

theorem course_readvertised (advertised : KeyMap String Capability) :
    Course L s { s with node := s.node.withAdvertised advertised } :=
  (Move.aside { s.node.discovery with advertised := advertised } s.node.table s.node.sessions
    s.node.nextSession s.node.events s.network).course

theorem course_advertise (steady : s.Steady) (topic : String) (c : Capability) :
    Course L s (after (advertise topic c) s) :=
  .trans (course_readvertised (s.node.discovery.advertised.insert topic c))
    (course_announce (s := { s with node := s.node.withAdvertised _ }) steady)

theorem course_withdraw (steady : s.Steady) (topic : String) :
    Course L s (after (withdraw topic) s) := by
  unfold withdraw
  rw [after_bind_ok (node_eq s)]
  split
  · exact .trans (course_readvertised (s.node.discovery.advertised.erase topic))
      (course_announce (s := { s with node := s.node.withAdvertised _ }) steady)
  · exact .refl s

theorem course_announceDeparture (steady : s.Steady) :
    Course L s (after announceDeparture s) :=
  .trans (course_readvertised .empty)
    (course_say (s := { s with node := s.node.withAdvertised .empty }) steady _)

/-! ## Records -/

theorem steady_closed (steady : s.Steady) (topic : String) (record : Subscription Callback)
    (network : DirectNetwork) : (closed s topic record network).Steady :=
  steady

theorem course_endSubscription (steady : s.Steady) {topic : String} (may : L.ends topic) :
    Course L s (after (endSubscription topic) s) := by
  cases found : s.node.subscriptions.get? topic with
  | none =>
    rw [after_ok (endSubscription_none found)]
    exact .refl s
  | some record =>
    obtain ⟨network, run⟩ := endSubscription_some steady found
    have ends : Course L s (closed s topic record network) :=
      (Move.closed topic record network found may).course
    rw [after_congr run]
    split
    · exact ends.trans (course_withdraw (steady_closed steady topic record network) topic)
    · exact ends

theorem course_undo (steady : s.Steady) {topic : String} (may : L.ends topic) (e : Error) :
    Course L s (after (undo topic e) s) := by
  unfold undo
  cases found : s.node.subscriptions.get? topic with
  | none =>
    rw [after_bind_ok (removeRecord_none found)]
    exact .refl s
  | some record =>
    obtain ⟨network, tears⟩ := teardown_removed steady topic record
    rw [after_bind_ok (removeRecord_some found)]
    dsimp only
    rw [after_bind_ok tears]
    exact (Move.closed topic record network found may).course

theorem course_conclude (steady : s.Steady) {topic : String} (may : L.ends topic)
    (protocol : Protocol) (port : UInt16) (advertised : Bool) :
    Course L s (after (conclude topic protocol port advertised .inserted) s) := by
  cases advertised with
  | false => exact .refl s
  | true =>
    have spoken := course_advertise (L := L) steady topic ⟨protocol, port⟩
    cases run : advertise topic ⟨protocol, port⟩ s with
    | ok a t =>
      rw [after_ok run] at spoken
      rw [after_ok (conclude_advertised run)]
      exact spoken
    | error e t =>
      rw [after_error run] at spoken
      rw [after_congr (conclude_unadvertised run)]
      exact spoken.trans (course_undo (spoken.steady steady) may e)

theorem course_subscribeWith (steady : s.Steady) {topic : String} {callback : Callback}
    (joins : L.joins topic callback) (ends : L.ends topic) (protocol : Protocol) (qos : QoS)
    (advertised : Bool) :
    Course L s (after (subscribeWith topic callback protocol qos advertised) s) := by
  unfold subscribeWith
  cases found : s.node.subscriptions.get? topic with
  | some record =>
    rw [after_bind_ok (findRecord_some found)]
    exact (Move.joined topic callback record found joins).course
  | none =>
    have look := findRecord_none callback found
    cases up : s.isConnected with
    | false =>
      rw [up, if_neg Bool.false_ne_true] at look
      rw [after_bind_error look]
      exact .refl s
    | true =>
      rw [up, if_pos rfl] at look
      rw [after_bind_ok look, if_neg Bool.false_ne_true]
      rcases openEndpoint_cases topic protocol qos s with
        ⟨endpoint, network, opens, -⟩ | ⟨e, fails⟩
      · let opened : Station := { s with hub := hubWith s topic qos endpoint, network := network }
        let offered : Station :=
          { opened with node := s.node.withRecord topic ⟨[callback], endpoint, qos, advertised⟩ }
        have made : Course L s offered :=
          (Move.opened topic callback endpoint qos advertised network up found joins).course
        rw [after_bind_ok opens, after_bind_ok (offer_none (s := opened) found)]
        exact made.trans (course_conclude (s := offered) steady ends protocol endpoint.port advertised)
      · rw [after_bind_error fails]
        exact .refl s

theorem course_subscribe (steady : s.Steady) {topic : String} {callback : Callback}
    (joins : L.joins topic callback) (ends : L.ends topic) (protocols : ProtocolSet) (qos : QoS) :
    Course L s (after (subscribe topic callback protocols qos) s) := by
  unfold subscribe
  rcases checkTopic_cases (s := s) topic with ⟨topic_ok, -⟩ | ⟨e, fails⟩
  · rw [after_bind_ok topic_ok]
    rcases checkProtocols_cases (s := s) protocols with ⟨protocols_ok, -⟩ | ⟨e, fails⟩
    · rw [after_bind_ok protocols_ok, after_bind_ok (node_eq s)]
      split
      · exact .refl s
      · cases preference.find? protocols.contains with
        | none => exact .refl s
        | some protocol => exact course_subscribeWith steady joins ends protocol qos true
    · rw [after_bind_error fails]
      exact .refl s
  · rw [after_bind_error fails]
    exact .refl s

theorem course_unsubscribe (steady : s.Steady) {topic : String} (may : L.ends topic) :
    Course L s (after (unsubscribe topic) s) := by
  unfold unsubscribe
  rcases checkTopic_cases (s := s) topic with ⟨topic_ok, -⟩ | ⟨e, fails⟩
  · rw [after_bind_ok topic_ok]
    exact course_endSubscription steady may
  · rw [after_bind_error fails]
    exact .refl s

theorem course_doChores (topics : List String) {s : Station} (steady : s.Steady)
    (may : ∀ topic ∈ topics, L.ends topic) : Course L s (after (doChores topics) s) := by
  induction topics generalizing s with
  | nil => exact .refl s
  | cons topic rest ih =>
    have first := course_endSubscription steady (may topic List.mem_cons_self)
    rw [← after_attempt] at first
    unfold doChores
    exact course_bind first fun _ t _ so_far => so_far.trans
      (ih (so_far.steady steady) fun other h => may other (List.mem_cons_of_mem topic h))

/-! ## Requests -/

theorem course_ask (steady : s.Steady) {answers : String} {m : Message} (posts : L.posts m)
    (ends : L.ends answers) : Course L s (after (Station.ask answers m) s) := by
  have spoken : Course L s (after (post m) s) := course_post steady (.inr posts)
  cases run : post m s with
  | ok a t =>
    rw [after_ok run] at spoken
    rw [after_ok (Station.ask_posted run)]
    exact spoken
  | error e t =>
    rw [after_error run] at spoken
    rw [Station.after_ask_unposted run]
    exact spoken.trans (course_endSubscription (spoken.steady steady) ends)

/-! ## Joining -/

theorem course_subscribeFilter (steady : s.Steady) {filter : String}
    (known : filter = s.node.config.discovery.filter ∨
      ∃ record, s.node.subscriptions.get? filter = some record ∧ record.endpoint = .broker)
    (qos : QoS) :
    Course L s (after (subscribeFilter filter qos) s) := by
  cases up : s.isConnected with
  | true =>
    rw [after_ok (subscribeFilter_connected steady up filter qos)]
    exact (Move.renewed filter qos up known).course
  | false =>
    rw [after_error (subscribeFilter_lost steady up filter qos)]
    exact .refl s

theorem course_renew (topics : List (String × QoS)) {s : Station} (steady : s.Steady)
    (known : ∀ t ∈ topics, ∃ record, s.node.subscriptions.get? t.1 = some record ∧
      record.endpoint = .broker) :
    Course L s (after (renew topics) s) := by
  induction topics generalizing s with
  | nil => exact .refl s
  | cons t rest ih =>
    have first : Course L s (after (subscribeFilter t.1 t.2) s) :=
      course_subscribeFilter steady (.inr (known t List.mem_cons_self)) t.2
    unfold renew
    refine course_bind first fun _ next run so_far => so_far.trans ?_
    cases up : s.isConnected with
    | true =>
      rw [subscribeFilter_connected steady up t.1 t.2] at run
      cases run
      exact ih steady fun other h => known other (List.mem_cons_of_mem t h)
    | false =>
      rw [subscribeFilter_lost steady up t.1 t.2] at run
      cases run

theorem course_startDiscovery (steady : s.Steady) : Course L s (after startDiscovery s) := by
  unfold startDiscovery
  rw [after_bind_ok (node_eq s)]
  refine course_bind (course_subscribeFilter steady (.inl rfl) _) fun _ t _ so_far =>
    so_far.trans ?_
  split
  · exact .refl t
  · exact course_announce (so_far.steady steady)

theorem will_topic {c : DiscoveryConfig} {will : Option Will} (h : c.will = .ok will) (w : Will)
    (given : will = some w) : w.topic = c.nodeTopic := by
  subst given
  unfold DiscoveryConfig.will at h
  split at h
  · cases worded : (Announcement.departure c.host).encode with
    | error e =>
      rw [worded] at h
      cases h
    | ok payload =>
      rw [worded] at h
      cases h
      rfl
  · cases h

theorem setWill_cases (s : Station) :
    (∃ e, setWill s = .error e s) ∨
      ∃ will, (∀ w, will = some w → w.topic = s.node.config.discovery.nodeTopic) ∧
        setWill s = .ok ()
          { s with node := { s.node with line := { s.node.line with will := will } } } := by
  unfold setWill
  rw [bind_ok (node_eq s)]
  cases worded : s.node.config.discovery.will with
  | error e => exact .inl ⟨_, rfl⟩
  | ok will => exact .inr ⟨will, will_topic worded, rfl⟩

theorem mem_brokerTopics {subscriptions : Subscriptions Callback} {topic : String} {qos : QoS} :
    (topic, qos) ∈ subscriptions.brokerTopics ↔
      ∃ record, subscriptions.get? topic = some record ∧ record.endpoint = .broker ∧
        record.qos = qos := by
  unfold Subscriptions.brokerTopics
  rw [List.mem_map]
  constructor
  · rintro ⟨e, listed, same⟩
    cases same
    obtain ⟨entry, at_broker⟩ := List.mem_filter.1 listed
    exact ⟨e.2, KeyMap.mem_entries_iff.1 entry, by simpa using at_broker, rfl⟩
  · rintro ⟨record, found, at_broker, rfl⟩
    exact ⟨(topic, record), List.mem_filter.2 ⟨KeyMap.mem_entries_iff.2 found, by simpa using at_broker⟩,
      rfl⟩

theorem attach_of_attached (steady : s.Steady) {inbox : Nat} (h : s.node.line.inbox = some inbox) :
    attach s = .ok () s := by
  have line : s.node.line.connect s.hub = (s.node.line, s.hub) := by
    unfold Line.connect
    rw [h]
  rw [attach_eq steady, line]

theorem attach_of_lost (steady : s.Steady) (h : s.node.line.inbox = none) :
    attach s = .ok ()
      { s with
        node := { s.node with line := { s.node.line with inbox := some s.hub.nextInbox } }
        hub := (s.hub.register s.node.line.client s.node.line.will).1 } := by
  have line : s.node.line.connect s.hub = ({ s.node.line with inbox := some s.hub.nextInbox },
      (s.hub.register s.node.line.client s.node.line.will).1) := by
    unfold Line.connect
    rw [h]
    rfl
  rw [attach_eq steady, line]

/-- The station of a node that had no line, after it has attached one with a will. -/
def reattached (s : Station) (will : Option Will) : Station :=
  { s with
    node := { s.node with
      line := { s.node.line with will := will, inbox := some s.hub.nextInbox } }
    hub := (s.hub.register s.node.line.client will).1 }

/-- The station of a node that had no line, after it has renewed its records as well. -/
def readmitted (s : Station) (will : Option Will) : Station :=
  { reattached s will with
    hub := renewed s.node.line.client s.node.subscriptions.brokerTopics (reattached s will).hub }

theorem isConnected_reattached (s : Station) (will : Option Will) :
    (reattached s will).isConnected = true := by
  show (true && (s.hub.broker.clients.insert s.node.line.client _).contains s.node.line.client) = true
  rw [Bool.true_and, KeyMap.contains, KeyMap.get?_insert, if_pos rfl]
  rfl

theorem isConnected_readmitted (s : Station) (will : Option Will) :
    (readmitted s will).isConnected = true :=
  (Line.isConnected_congr (clients_renewed ..)).trans (isConnected_reattached s will)

/-- **Who connects without a line**, unless its will cannot be made: it attaches one,
renews its records, and starts discovery. -/
theorem connect_of_lost (steady : s.Steady) (vacant : s.node.line.inbox = none) :
    after connect s = s ∨ ∃ will,
      (∀ w, will = some w → w.topic = s.node.config.discovery.nodeTopic) ∧
        after connect s = after startDiscovery (readmitted s will) := by
  unfold connect
  rcases setWill_cases s with ⟨e, fails⟩ | ⟨will, own, sets⟩
  · exact .inl (after_bind_error fails)
  · let sworn : Station :=
      { s with node := { s.node with line := { s.node.line with will := will } } }
    have attaches : attach sworn = .ok () (reattached s will) := attach_of_lost steady vacant
    have renews : renew (reattached s will).node.subscriptions.brokerTopics (reattached s will) =
        .ok () (readmitted s will) := renew_ok _ steady (isConnected_reattached s will)
    refine .inr ⟨will, own, ?_⟩
    rw [after_bind_ok sets, after_bind_ok attaches, after_bind_ok (node_eq _), after_bind_ok renews]

theorem course_readmitted (roams : L.roams) (vacant : s.node.line.inbox = none) {will : Option Will}
    (own : ∀ w, will = some w → w.topic = s.node.config.discovery.nodeTopic) :
    Course L s (readmitted s will) := by
  let sworn : Station :=
    { s with node := { s.node with line := { s.node.line with will := will } } }
  have swears : Course L s sworn := (Move.willed will own).course
  exact swears.trans (Move.attached (s := sworn) roams vacant).course

theorem course_connect (steady : s.Steady) (roams : s.node.line.inbox = none → L.roams) :
    Course L s (after connect s) := by
  cases vacant : s.node.line.inbox with
  | none =>
    rcases connect_of_lost steady vacant with stays | ⟨will, own, run⟩
    · rw [stays]
      exact .refl s
    · rw [run]
      exact (course_readmitted (roams vacant) vacant own).trans
        (course_startDiscovery (s := readmitted s will) steady)
  | some inbox =>
    unfold connect
    rcases setWill_cases s with ⟨e, fails⟩ | ⟨will, own, sets⟩
    · rw [after_bind_error fails]
      exact .refl s
    · let sworn : Station :=
        { s with node := { s.node with line := { s.node.line with will := will } } }
      rw [after_bind_ok sets, after_bind_ok (attach_of_attached (s := sworn) steady vacant),
        after_bind_ok (node_eq sworn)]
      refine Course.trans (Move.willed will own).course ?_
      refine course_bind (s := sworn) (course_renew _ steady fun e listed => ?_) fun _ t _ so_far =>
        so_far.trans (course_startDiscovery (so_far.steady steady))
      obtain ⟨record, found, at_broker, -⟩ := mem_brokerTopics.1 listed
      exact ⟨record, found, at_broker⟩

/-! ## Leaving -/

theorem course_detach (steady : s.Steady) (roams : L.roams) :
    Course L s (after (detach >>= fun _ => forgetRoutes) s) := by
  have forgets : ∀ t : Station, Course L t (after forgetRoutes t) := fun t =>
    (Move.aside t.node.discovery _ _ t.node.nextSession t.node.events t.network).course
  refine course_bind ?_ fun _ t _ so_far => so_far.trans (forgets t)
  cases h : s.node.line.inbox with
  | some inbox =>
    rw [after_ok (detach_of_attached steady h)]
    exact (Move.detached inbox roams h).course
  | none =>
    rw [after_ok (detach_of_lost steady h), Line.with_inbox_none h]
    exact .refl s

theorem course_disconnect (steady : s.Steady) (roams : L.roams) :
    Course L s (after disconnect s) := by
  obtain ⟨network, ends⟩ := endAll_ok steady
  unfold disconnect
  rw [after_bind_ok ends]
  refine Course.trans (Move.emptied network roams).course ?_
  rw [after_bind_ok (changeNode_eq _ _)]
  refine Course.trans (Move.forgot roams).course ?_
  rw [after_bind_ok (isConnected_eq _)]
  split
  · have spoken := course_announceDeparture (L := L) (s := { s with
      node := { s.node.withSubscriptions .empty with replySequences := .empty }
      hub := hubWithoutAll s s.node.subscriptions.byTopic.entries
      network := network }) steady
    rw [← after_attempt] at spoken
    exact course_bind spoken fun _ t _ so_far =>
      so_far.trans (course_detach (so_far.steady steady) roams)
  · exact course_detach (s := { s with
      node := { s.node.withSubscriptions .empty with replySequences := .empty }
      hub := hubWithoutAll s s.node.subscriptions.byTopic.entries
      network := network }) steady roams

theorem course_abort (roams : L.roams) : Course L s (after abort s) := by
  obtain ⟨events, run⟩ := abort_ok s
  rw [after_ok run]
  exact (Move.lost events roams).course

end Node

end TopicMesh
