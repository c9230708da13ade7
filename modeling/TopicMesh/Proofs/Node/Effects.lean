import TopicMesh.Node.Calls
import TopicMesh.Proofs.Announcement.RoundTrip
import TopicMesh.Proofs.Broker.Reading

/-!
# What the steps of a call do

Calls are sequences of acts, and a sequence runs act by act (`bind_ok`,
`bind_error`).  Here is what each single act does to a station whose line calls do
not fail by themselves (`Steady`), and whether it fails: line calls fail just if the
line is not connected, and announcements are made just if the line is connected and
what they say can be written (`Announceable`).
-/

namespace TopicMesh

/-- Whether the line's calls do not fail by themselves. -/
def Station.Steady (s : Station) : Prop :=
  ∀ call, s.outage.line call = none

/-- Whether a station's line is connected. -/
def Station.isConnected (s : Station) : Bool :=
  s.node.line.isConnected s.hub

theorem Line.isConnected_congr {line : Line} {hub hub' : Hub}
    (same : hub'.broker.clients = hub.broker.clients) :
    line.isConnected hub' = line.isConnected hub := by
  unfold Line.isConnected Broker.has
  rw [same]

namespace Node

/-- The announcement of what a node serves. -/
def ownAnnouncement (n : Node) : Announcement :=
  n.discovery.own n.config.discovery

/-- The message that says what a node serves. -/
def announcement (n : Node) : Message :=
  .plain n.config.discovery.nodeTopic n.ownAnnouncement.toPack.write .atLeastOnce true

/-- The message that says that a node has left. -/
def farewell (n : Node) : Message :=
  .plain n.config.discovery.nodeTopic (Announcement.departure n.config.discovery.host).toPack.write
    .atLeastOnce true

/-- The will of a node. -/
def lastWill (n : Node) : Option Will :=
  if n.config.discovery.lastWill then
    some ⟨n.config.discovery.nodeTopic,
      (Announcement.departure n.config.discovery.host).toPack.write, .atLeastOnce, true⟩
  else none

/-- Whether what a node says about itself can be written. -/
structure Announceable (n : Node) : Prop where
  host : n.config.discovery.host ≠ ""
  keys : ∀ topic ∈ n.discovery.advertised.keys, isReservedKey topic = false

end Node

namespace Act

variable {α β : Type} {s s' : Station}

/-! ## Sequences -/

theorem bind_ok {act : Act α} {f : α → Act β} {a : α} (h : act s = .ok a s') :
    (act >>= f) s = f a s' := by
  show EStateM.bind act f s = _
  unfold EStateM.bind
  rw [h]

theorem bind_error {act : Act α} {f : α → Act β} {e : Error} (h : act s = .error e s') :
    (act >>= f) s = .error e s' := by
  show EStateM.bind act f s = _
  unfold EStateM.bind
  rw [h]

theorem attempt_ok {act : Act Unit} (h : act s = .ok () s') : attempt act s = .ok () s' := by
  unfold attempt
  rw [h]

theorem attempt_error {act : Act Unit} {e : Error} (h : act s = .error e s') :
    attempt act s = .ok () s' := by
  unfold attempt
  rw [h]

/-- The station after an act, whether it fails or not. -/
def after (act : Act α) (s : Station) : Station :=
  match act s with
  | .ok _ s => s
  | .error _ s => s

/-- Whether an act does not fail. -/
def succeeds (act : Act α) (s : Station) : Bool :=
  match act s with
  | .ok _ _ => true
  | .error _ _ => false

theorem after_ok {act : Act α} {a : α} (h : act s = .ok a s') : after act s = s' := by
  unfold after
  rw [h]

theorem after_error {act : Act α} {e : Error} (h : act s = .error e s') : after act s = s' := by
  unfold after
  rw [h]

theorem after_bind_ok {act : Act α} {f : α → Act β} {a : α} (h : act s = .ok a s') :
    after (act >>= f) s = after (f a) s' := by
  unfold after
  rw [bind_ok h]

theorem after_bind_error {act : Act α} {f : α → Act β} {e : Error} (h : act s = .error e s') :
    after (act >>= f) s = s' :=
  after_error (bind_error h)

theorem after_congr {act act' : Act α} (h : act s = act' s') : after act s = after act' s' := by
  unfold after
  rw [h]

/-- An attempted act does what it does, and does not fail. -/
theorem attempt_eq (act : Act Unit) (s : Station) : attempt act s = .ok () (after act s) := by
  unfold attempt after
  cases act s <;> rfl

theorem after_attempt (act : Act Unit) (s : Station) : after (attempt act) s = after act s :=
  after_ok (attempt_eq act s)

theorem node_eq (s : Station) : Act.node s = .ok s.node s := rfl

theorem changeNode_eq (f : Node → Node) (s : Station) :
    changeNode f s = .ok () { s with node := f s.node } := rfl

theorem isConnected_eq (s : Station) : Act.isConnected s = .ok s.isConnected s := rfl

/-! ## The line -/

theorem onHub_connected {call : LineCall} {f : Line → Hub → Except Error Hub} {hub : Hub}
    (steady : s.Steady) (h : f s.node.line s.hub = .ok hub) :
    onLine call (fun line hub => (f line hub).map fun hub => (line, hub)) s =
      .ok () { s with hub := hub } := by
  unfold onLine
  rw [steady call]
  dsimp only
  rw [h]
  rfl

theorem onHub_lost {call : LineCall} {f : Line → Hub → Except Error Hub} {e : Error}
    (steady : s.Steady) (h : f s.node.line s.hub = .error e) :
    onLine call (fun line hub => (f line hub).map fun hub => (line, hub)) s = .error e s := by
  unfold onLine
  rw [steady call]
  dsimp only
  rw [h]
  rfl

theorem post_connected (steady : s.Steady) (connected : s.isConnected = true) (m : Message) :
    post m s = .ok () { s with hub := s.hub.publish m } :=
  onHub_connected (f := fun line hub => line.publish hub m) steady (if_pos connected)

theorem post_lost (steady : s.Steady) (lost : s.isConnected = false) (m : Message) :
    post m s = .error .notConnected s :=
  onHub_lost (f := fun line hub => line.publish hub m) steady
    (if_neg (by simpa [Station.isConnected] using lost))

theorem subscribeFilter_connected (steady : s.Steady) (connected : s.isConnected = true)
    (filter : String) (qos : QoS) :
    subscribeFilter filter qos s =
      .ok () { s with hub := s.hub.subscribe filter s.node.line.client qos } :=
  onHub_connected (f := fun line hub => line.subscribe hub filter qos) steady (if_pos connected)

theorem subscribeFilter_lost (steady : s.Steady) (lost : s.isConnected = false)
    (filter : String) (qos : QoS) :
    subscribeFilter filter qos s = .error .notConnected s :=
  onHub_lost (f := fun line hub => line.subscribe hub filter qos) steady
    (if_neg (by simpa [Station.isConnected] using lost))

theorem unsubscribeFilter_connected (steady : s.Steady) (connected : s.isConnected = true)
    (filter : String) :
    unsubscribeFilter filter s =
      .ok () { s with hub := s.hub.unsubscribe filter s.node.line.client } :=
  onHub_connected (f := fun line hub => line.unsubscribe hub filter) steady (if_pos connected)

theorem attach_eq (steady : s.Steady) :
    attach s = .ok ()
      { s with
        node := { s.node with line := (s.node.line.connect s.hub).1 }
        hub := (s.node.line.connect s.hub).2 } := by
  unfold attach onLine
  rw [steady]

theorem detach_eq (steady : s.Steady) :
    detach s = .ok ()
      { s with
        node := { s.node with line := (s.node.line.disconnect s.hub).1 }
        hub := (s.node.line.disconnect s.hub).2 } := by
  unfold detach onLine
  rw [steady]

end Act

namespace Node

open Act

variable {s : Station}

/-! ## Discovery -/

theorem encode_announcement {n : Node} (ok : n.Announceable) :
    n.config.discovery.announce n.ownAnnouncement = .ok n.announcement := by
  unfold DiscoveryConfig.announce
  rw [Announcement.encode_ok ok.host ok.keys]
  rfl

theorem encode_farewell {n : Node} (host : n.config.discovery.host ≠ "") :
    n.config.discovery.departure = .ok n.farewell := by
  unfold DiscoveryConfig.departure DiscoveryConfig.announce
  rw [Announcement.encode_departure host]
  rfl

theorem encode_will {n : Node} (host : n.config.discovery.host ≠ "") :
    n.config.discovery.will = .ok n.lastWill := by
  unfold DiscoveryConfig.will lastWill
  split
  · rw [Announcement.encode_departure host]
    rfl
  · rfl

theorem announce_eq_post (ok : s.node.Announceable) : announce s = post s.node.announcement s := by
  unfold announce
  rw [bind_ok (node_eq s)]
  have encoded_ok : encoded (s.node.config.discovery.announce
      (s.node.discovery.own s.node.config.discovery)) s = .ok s.node.announcement s := by
    rw [show s.node.discovery.own s.node.config.discovery = s.node.ownAnnouncement from rfl,
      encode_announcement ok]
    rfl
  rw [bind_ok encoded_ok]

theorem announce_connected (steady : s.Steady) (connected : s.isConnected = true)
    (ok : s.node.Announceable) :
    announce s = .ok () { s with hub := s.hub.publish s.node.announcement } := by
  rw [announce_eq_post ok, post_connected steady connected]

theorem announce_lost (steady : s.Steady) (lost : s.isConnected = false)
    (ok : s.node.Announceable) : announce s = .error .notConnected s := by
  rw [announce_eq_post ok, post_lost steady lost]

/-- The node with other topics advertised. -/
def withAdvertised (n : Node) (advertised : KeyMap String Capability) : Node :=
  { n with discovery := { n.discovery with advertised := advertised } }

/-- The node with other subscriptions. -/
def withSubscriptions (n : Node) (subscriptions : KeyMap String (Subscription Callback)) : Node :=
  { n with subscriptions := ⟨subscriptions⟩ }

theorem startDiscovery_connected (steady : s.Steady) (connected : s.isConnected = true)
    (ok : s.node.Announceable) :
    let hub := s.hub.subscribe s.node.config.discovery.filter s.node.line.client .atLeastOnce
    startDiscovery s = .ok ()
      { s with
        hub := if s.node.discovery.advertised.isEmpty then hub
          else hub.publish s.node.announcement } := by
  intro hub
  have connected' : ({ s with hub := hub } : Station).isConnected = true := by
    rw [← connected]
    exact Line.isConnected_congr (Broker.clients_subscribe ..)
  unfold startDiscovery
  rw [bind_ok (node_eq s), bind_ok (subscribeFilter_connected steady connected _ _)]
  split
  · rfl
  · exact announce_connected (s := { s with hub := hub }) steady connected' ok

theorem advertise_connected (steady : s.Steady) (connected : s.isConnected = true)
    {topic : String} {c : Capability}
    (ok : (s.node.withAdvertised (s.node.discovery.advertised.insert topic c)).Announceable) :
    let n := s.node.withAdvertised (s.node.discovery.advertised.insert topic c)
    advertise topic c s = .ok () { s with node := n, hub := s.hub.publish n.announcement } := by
  intro n
  unfold advertise
  rw [bind_ok (changeNode_eq _ s)]
  exact announce_connected (s := { s with node := n }) steady connected ok

theorem withdraw_eq (steady : s.Steady) {topic : String}
    (ok : (s.node.withAdvertised (s.node.discovery.advertised.erase topic)).Announceable)
    (served : s.node.discovery.advertised.contains topic = true) :
    let n := s.node.withAdvertised (s.node.discovery.advertised.erase topic)
    after (withdraw topic) s =
      { s with node := n, hub := if s.isConnected then s.hub.publish n.announcement else s.hub } := by
  intro n
  have run : withdraw topic s = announce { s with node := n } := by
    unfold withdraw
    rw [bind_ok (node_eq s), if_pos served, bind_ok (changeNode_eq _ s)]
    rfl
  cases connected : s.isConnected with
  | true =>
    rw [if_pos rfl]
    exact after_ok (run.trans
      (announce_connected (s := { s with node := n }) steady connected ok))
  | false =>
    rw [if_neg Bool.false_ne_true]
    exact after_error (run.trans (announce_lost (s := { s with node := n }) steady connected ok))

theorem withdraw_of_not_served {topic : String}
    (h : s.node.discovery.advertised.contains topic = false) : withdraw topic s = .ok () s := by
  unfold withdraw
  rw [bind_ok (node_eq s), if_neg (by simp [h])]
  rfl

/-! ## Endpoints -/

/-- The hub after an endpoint of a topic was closed. -/
def hubWithout (s : Station) (hub : Hub) (topic : String) (e : Endpoint) : Hub :=
  if e = .broker ∧ s.isConnected = true then hub.unsubscribe topic s.node.line.client else hub

theorem hubWithout_of_ne {hub : Hub} {topic : String} {e : Endpoint} (h : e ≠ .broker) :
    hubWithout s hub topic e = hub :=
  if_neg fun both => h both.1

theorem teardown_ok (steady : s.Steady) (topic : String) (e : Endpoint) :
    ∃ network, teardown topic e s =
      .ok () { s with hub := hubWithout s s.hub topic e, network := network } := by
  cases e with
  | broker =>
    refine ⟨s.network, ?_⟩
    show (isConnected >>= fun up => if up then attempt (unsubscribeFilter topic) else pure ()) s = _
    unfold hubWithout
    rw [bind_ok (isConnected_eq s)]
    cases connected : s.isConnected with
    | true =>
      rw [if_pos rfl, if_pos ⟨rfl, rfl⟩]
      exact attempt_ok (unsubscribeFilter_connected steady connected topic)
    | false =>
      rw [if_neg Bool.false_ne_true, if_neg fun h => Bool.false_ne_true h.2]
      rfl
  | direct protocol port =>
    rw [hubWithout_of_ne (by simp)]
    show ∃ network, (node >>= fun n =>
      if protocol ∈ n.config.transports then unlisten protocol port else pure ()) s = _
    rw [bind_ok (node_eq s)]
    split
    · exact ⟨_, rfl⟩
    · exact ⟨s.network, rfl⟩
  | peer port =>
    rw [hubWithout_of_ne (by simp)]
    exact ⟨s.network.unlisten s.node.id .peerRtc port, rfl⟩

theorem hubWithout_keeps {P : Hub → Prop} {hub : Hub} {topic : String} (e : Endpoint)
    (strikes : P (hub.unsubscribe topic s.node.line.client)) (stays : P hub) :
    P (hubWithout s hub topic e) := by
  unfold hubWithout
  split
  · exact strikes
  · exact stays

theorem clients_hubWithout (hub : Hub) (topic : String) (e : Endpoint) :
    (hubWithout s hub topic e).broker.clients = hub.broker.clients :=
  hubWithout_keeps (P := fun h => h.broker.clients = hub.broker.clients) e
    (Broker.clients_unsubscribe ..) rfl

theorem isConnected_hubWithout (topic : String) (e : Endpoint) (hub : Hub) :
    s.node.line.isConnected (hubWithout s hub topic e) = s.node.line.isConnected hub :=
  Line.isConnected_congr (clients_hubWithout hub topic e)

/-- The hub after the endpoints of some records were closed. -/
def hubWithoutAll (s : Station) (records : List (String × Subscription Callback)) : Hub :=
  records.foldl (fun hub r => hubWithout s hub r.1 r.2.endpoint) s.hub

/-- What closing each of some records keeps, closing them all keeps. -/
theorem hubWithoutAll_keeps {P : Hub → Prop} {records : List (String × Subscription Callback)}
    (start : P s.hub)
    (closes : ∀ hub, P hub → ∀ r ∈ records, P (hubWithout s hub r.1 r.2.endpoint)) :
    P (hubWithoutAll s records) :=
  List.foldlRecOn records _ start closes

theorem clients_hubWithoutAll (records : List (String × Subscription Callback)) :
    (hubWithoutAll s records).broker.clients = s.hub.broker.clients :=
  hubWithoutAll_keeps (P := fun h => h.broker.clients = s.hub.broker.clients) rfl
    fun hub same r _ => (clients_hubWithout hub r.1 r.2.endpoint).trans same

theorem teardownAll_ok (records : List (String × Subscription Callback)) {s : Station}
    (steady : s.Steady) :
    ∃ network, teardownAll records s =
      .ok () { s with hub := hubWithoutAll s records, network := network } := by
  induction records generalizing s with
  | nil => exact ⟨s.network, rfl⟩
  | cons r rest ih =>
    obtain ⟨network, h⟩ := teardown_ok steady r.1 r.2.endpoint
    let next : Station :=
      { s with hub := hubWithout s s.hub r.1 r.2.endpoint, network := network }
    obtain ⟨network', h'⟩ := ih (s := next) steady
    have same : ∀ hub topic e, hubWithout next hub topic e = hubWithout s hub topic e := by
      intro hub topic e
      have : next.isConnected = s.isConnected :=
        isConnected_hubWithout (s := s) r.1 r.2.endpoint s.hub
      unfold hubWithout
      rw [this]
    have hubs : hubWithoutAll next rest = hubWithoutAll s (r :: rest) := by
      unfold hubWithoutAll
      simp only [same]
      rfl
    refine ⟨network', ?_⟩
    unfold teardownAll
    rw [bind_ok h, h', hubs]

/-- The hub after an endpoint of a topic was opened. -/
def hubWith (s : Station) (topic : String) (qos : QoS) (e : Endpoint) : Hub :=
  if e = .broker then s.hub.subscribe topic s.node.line.client qos else s.hub

theorem hubWith_keeps {P : Hub → Prop} {topic : String} {qos : QoS} (e : Endpoint)
    (lists : P (s.hub.subscribe topic s.node.line.client qos)) (stays : P s.hub) :
    P (hubWith s topic qos e) := by
  unfold hubWith
  split
  · exact lists
  · exact stays

theorem clients_hubWith (topic : String) (qos : QoS) (e : Endpoint) :
    (hubWith s topic qos e).broker.clients = s.hub.broker.clients :=
  hubWith_keeps (P := fun h => h.broker.clients = s.hub.broker.clients) e
    (Broker.clients_subscribe ..) rfl

theorem openEndpoint_broker (topic : String) (qos : QoS) :
    openEndpoint topic .broker qos =
      (subscribeFilter topic qos >>= fun _ => pure Endpoint.broker) := rfl

theorem openEndpoint_peer (topic : String) (qos : QoS) :
    openEndpoint topic .peerRtc qos =
      (listen .peerRtc topic >>= fun port => pure (Endpoint.peer port)) := rfl

theorem openEndpoint_direct {protocol : Protocol} (broker : protocol ≠ .broker)
    (peer : protocol ≠ .peerRtc) (topic : String) (qos : QoS) :
    openEndpoint topic protocol qos = (node >>= fun n =>
      if protocol ∈ n.config.transports then
        listen protocol topic >>= fun port => pure (Endpoint.direct protocol port)
      else throw (.invalidArgument s!"no transport registered for {protocol.name}")) := by
  cases protocol with
  | broker => exact absurd rfl broker
  | peerRtc => exact absurd rfl peer
  | _ => rfl

/-- What the opening of an endpoint does. -/
inductive Opening (s : Station) (topic : String) (qos : QoS) : Endpoint → Station → Prop
  | broker :
    Opening s topic qos .broker { s with hub := s.hub.subscribe topic s.node.line.client qos }
  | direct (protocol : Protocol) (port : UInt16) (network : DirectNetwork) :
    protocol ∈ s.node.config.transports →
    s.network.listen ⟨s.node.id, protocol, topic⟩ = (network, port) →
    Opening s topic qos (.direct protocol port) { s with network := network }
  | peer (port : UInt16) (network : DirectNetwork) :
    s.network.listen ⟨s.node.id, .peerRtc, topic⟩ = (network, port) →
    Opening s topic qos (.peer port) { s with network := network }

theorem subscribeFilter_cases (filter : String) (qos : QoS) (s : Station) :
    (∃ e, subscribeFilter filter qos s = .error e s) ∨
      subscribeFilter filter qos s =
        .ok () { s with hub := s.hub.subscribe filter s.node.line.client qos } := by
  unfold subscribeFilter onLine Line.subscribe Line.ifConnected
  cases s.outage.line .subscribe with
  | some e => exact .inl ⟨e, rfl⟩
  | none =>
    dsimp only
    cases s.node.line.isConnected s.hub with
    | false => exact .inl ⟨_, rfl⟩
    | true => exact .inr rfl

theorem listen_outcome (protocol : Protocol) (topic : String) (s : Station) :
    (∃ e, listen protocol topic s = .error e s) ∨
      ∃ network port, s.network.listen ⟨s.node.id, protocol, topic⟩ = (network, port) ∧
        listen protocol topic s = .ok port { s with network := network } := by
  unfold Act.listen
  cases s.outage.listen protocol with
  | some e => exact .inl ⟨e, rfl⟩
  | none => exact .inr ⟨_, _, rfl, rfl⟩

/-- **An endpoint that cannot be opened changes nothing.** -/
theorem openEndpoint_outcome (topic : String) (protocol : Protocol) (qos : QoS) (s : Station) :
    (∃ e, openEndpoint topic protocol qos s = .error e s) ∨
      ∃ endpoint t, openEndpoint topic protocol qos s = .ok endpoint t ∧
        endpoint.protocol = protocol ∧ Opening s topic qos endpoint t := by
  by_cases broker : protocol = .broker
  · subst broker
    rw [openEndpoint_broker]
    rcases subscribeFilter_cases topic qos s with ⟨e, fails⟩ | opens
    · exact .inl ⟨e, bind_error fails⟩
    · exact .inr ⟨.broker, _, bind_ok opens, rfl, .broker⟩
  by_cases peer : protocol = .peerRtc
  · subst peer
    rw [openEndpoint_peer]
    rcases listen_outcome .peerRtc topic s with ⟨e, fails⟩ | ⟨network, port, is, opens⟩
    · exact .inl ⟨e, bind_error fails⟩
    · exact .inr ⟨.peer port, _, bind_ok opens, rfl, .peer port network is⟩
  rw [openEndpoint_direct broker peer, bind_ok (node_eq s)]
  split
  · next known =>
    rcases listen_outcome protocol topic s with ⟨e, fails⟩ | ⟨network, port, is, opens⟩
    · exact .inl ⟨e, bind_error fails⟩
    · exact .inr ⟨.direct protocol port, _, bind_ok opens, rfl, .direct protocol port network known is⟩
  · exact .inl ⟨_, rfl⟩

theorem Opening.node {qos : QoS} {endpoint : Endpoint} {t : Station}
    (opening : Opening s topic qos endpoint t) : t.node = s.node := by
  cases opening <;> rfl

theorem openEndpoint_cases (topic : String) (protocol : Protocol) (qos : QoS) (s : Station) :
    (∃ e network, openEndpoint topic protocol qos s =
        .ok e { s with hub := hubWith s topic qos e, network := network } ∧
          e.protocol = protocol) ∨
      ∃ e, openEndpoint topic protocol qos s = .error e s := by
  rcases openEndpoint_outcome topic protocol qos s with fails | ⟨endpoint, t, opens, is, opening⟩
  · exact .inr fails
  · refine .inl ⟨endpoint, t.network, ?_, is⟩
    rw [opens]
    cases opening <;> rfl

end Node

end TopicMesh
