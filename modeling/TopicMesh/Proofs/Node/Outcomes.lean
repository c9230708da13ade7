import TopicMesh.Proofs.Node.Effects

/-!
# What the calls do

Each call of a node's owner is described by what it does to the node and to the hub.
The broker is taken to know the node by its own line (`Attached`), as it does if no
other client has the node's name; so the line is connected just while it has an
inbox.  What a call does to the direct network is left open.
-/

namespace TopicMesh

open Node Act

theorem Line.with_inbox_none {line : Line} (h : line.inbox = none) :
    { line with inbox := none } = line := by
  cases line
  cases h
  rfl

/-- Whether the broker knows a station's node by its own line, and with its will. -/
structure Station.Attached (s : Station) : Prop where
  client : s.node.line.client = s.node.id
  inbox : (s.hub.broker.clients.get? s.node.id).map Registration.inbox = s.node.line.inbox
  will : ∀ r, s.hub.broker.clients.get? s.node.id = some r → r.will = s.node.lastWill

namespace Station

variable {s : Station}

theorem isConnected_eq_isSome (attached : s.Attached) :
    s.isConnected = s.node.line.inbox.isSome := by
  unfold isConnected Line.isConnected Broker.has KeyMap.contains
  rw [attached.client, ← attached.inbox, Option.isSome_map, Bool.and_self]

theorem inbox_eq_none_iff (attached : s.Attached) :
    s.node.line.inbox = none ↔ s.isConnected = false := by
  rw [isConnected_eq_isSome attached, Option.isSome_eq_false_iff, Option.isNone_iff_eq_none]

/-- Being attached is about the node's configuration and line, and about its client. -/
theorem Attached.congr {t : Station} (attached : s.Attached) (config : t.node.config = s.node.config)
    (line : t.node.line = s.node.line)
    (client : t.hub.broker.clients.get? s.node.id = s.hub.broker.clients.get? s.node.id) :
    t.Attached := by
  have id : t.node.id = s.node.id := congrArg (fun c : NodeConfig => c.discovery.nodeId) config
  refine ⟨?_, ?_, ?_⟩
  · rw [line, id, attached.client]
  · rw [id, client, line, attached.inbox]
  · rw [id, client]
    intro r hr
    rw [attached.will r hr, lastWill, lastWill, config]

theorem unknown_of_lost (attached : s.Attached) (lost : s.isConnected = false) :
    s.hub.broker.clients.get? s.node.id = none := by
  have := attached.inbox
  rw [(inbox_eq_none_iff attached).2 lost] at this
  exact Option.map_eq_none_iff.1 this

/-- A station whose line has no inbox and whose client the broker does not know is
attached. -/
theorem attached_of_lost (client : s.node.line.client = s.node.id)
    (inbox : s.node.line.inbox = none) (unknown : s.hub.broker.clients.get? s.node.id = none) :
    s.Attached := by
  refine ⟨client, ?_, fun r hr => ?_⟩
  · rw [unknown, inbox]
    rfl
  · rw [unknown] at hr
    cases hr

end Station

namespace Node

variable {s : Station}

/-! ## Joining -/

/-- The hub after the subscriptions of a client were renewed. -/
def renewed (client : String) (topics : List (String × QoS)) (hub : Hub) : Hub :=
  topics.foldl (fun hub t => hub.subscribe t.1 client t.2) hub

/-- What listing a client below each of some topics keeps, its renewal keeps. -/
theorem renewed_keeps {P : Hub → Prop} {client : String} {topics : List (String × QoS)} {hub : Hub}
    (start : P hub) (lists : ∀ h, P h → ∀ t ∈ topics, P (h.subscribe t.1 client t.2)) :
    P (renewed client topics hub) :=
  List.foldlRecOn topics _ start lists

theorem clients_renewed (client : String) (topics : List (String × QoS)) (hub : Hub) :
    (renewed client topics hub).broker.clients = hub.broker.clients :=
  renewed_keeps (P := fun h => h.broker.clients = hub.broker.clients) rfl
    fun _ same _ _ => (Broker.clients_subscribe ..).trans same

/-- The renewal lists a client below the valid topics, and strikes it nowhere. -/
theorem subscribed_renewed_iff (client : String) (topics : List (String × QoS)) (hub : Hub)
    {filter : String} :
    (renewed client topics hub).broker.subscribed filter client = true ↔
      hub.broker.subscribed filter client = true ∨
        Filter.isValid filter = true ∧ ∃ qos, (filter, qos) ∈ topics := by
  unfold renewed
  induction topics generalizing hub with
  | nil => simp
  | cons t rest ih =>
    obtain ⟨topic, qos⟩ := t
    rw [List.foldl_cons, ih, Hub.broker_subscribe, Broker.subscribed_subscribe, Bool.or_eq_true,
      decide_eq_true_eq]
    constructor
    · rintro ((before | ⟨valid, rfl, -⟩) | ⟨valid, qos', later⟩)
      · exact .inl before
      · exact .inr ⟨valid, qos, List.mem_cons_self⟩
      · exact .inr ⟨valid, qos', List.mem_cons_of_mem _ later⟩
    · rintro (before | ⟨valid, qos', there⟩)
      · exact .inl (.inl before)
      · rcases List.mem_cons.1 there with here | later
        · cases here
          exact .inl (.inr ⟨valid, rfl, rfl⟩)
        · exact .inr ⟨valid, qos', later⟩

theorem renew_ok (topics : List (String × QoS)) {s : Station} (steady : s.Steady)
    (connected : s.isConnected = true) :
    renew topics s = .ok () { s with hub := renewed s.node.line.client topics s.hub } := by
  induction topics generalizing s with
  | nil => rfl
  | cons t topics ih =>
    let next : Station := { s with hub := s.hub.subscribe t.1 s.node.line.client t.2 }
    have connected' : next.isConnected = true := by
      rw [← connected]
      exact Line.isConnected_congr (Broker.clients_subscribe ..)
    unfold renew
    rw [bind_ok (subscribeFilter_connected steady connected t.1 t.2)]
    exact ih (s := next) steady connected'

/-- The station after the line was attached, with the node's will. -/
def joined (s : Station) : Station :=
  let line := { s.node.line with will := s.node.lastWill }
  { s with
    node := { s.node with line := (line.connect s.hub).1 }
    hub := (line.connect s.hub).2 }

theorem joined_of_connected {inbox : Nat} (h : s.node.line.inbox = some inbox) :
    joined s = { s with node := { s.node with
      line := { s.node.line with will := s.node.lastWill } } } := by
  unfold joined Line.connect
  dsimp only
  rw [h]

theorem joined_of_lost (h : s.node.line.inbox = none) :
    joined s =
      { s with
        node := { s.node with
          line := ⟨s.node.line.client, some s.hub.nextInbox, s.node.lastWill⟩ }
        hub := (s.hub.register s.node.line.client s.node.lastWill).1 } := by
  unfold joined Line.connect
  dsimp only
  rw [h]
  rfl

theorem attached_joined (attached : s.Attached) : (joined s).Attached := by
  cases h : s.node.line.inbox with
  | some inbox =>
    rw [joined_of_connected h]
    exact ⟨attached.client, attached.inbox, attached.will⟩
  | none =>
    rw [joined_of_lost h]
    have registered : (s.hub.register s.node.line.client s.node.lastWill).1.broker.clients.get?
        s.node.id = some ⟨s.hub.nextInbox, s.node.lastWill⟩ := by
      rw [Hub.broker_register, attached.client]
      show (KeyMap.insert ..).get? _ = _
      rw [KeyMap.get?_insert, if_pos rfl]
    refine ⟨attached.client, ?_, fun r hr => ?_⟩
    · exact congrArg _ registered
    · have := registered.symm.trans hr
      exact (congrArg Registration.will (Option.some.inj this)).symm

theorem isConnected_joined (attached : s.Attached) : (joined s).isConnected = true := by
  rw [Station.isConnected_eq_isSome (attached_joined attached)]
  cases h : s.node.line.inbox with
  | some inbox =>
    rw [joined_of_connected h]
    simp [h]
  | none =>
    rw [joined_of_lost h]
    rfl

/-- The hub after a node has joined: its subscriptions are renewed, it listens to
announcements, and it has announced what it serves if it serves anything. -/
def hubJoined (s : Station) : Hub :=
  let hub := (renewed s.node.line.client s.node.subscriptions.brokerTopics (joined s).hub).subscribe
    s.node.config.discovery.filter s.node.line.client .atLeastOnce
  if s.node.discovery.advertised.isEmpty then hub else hub.publish s.node.announcement

theorem connect_ok (steady : s.Steady) (attached : s.Attached) (ok : s.node.Announceable) :
    connect s = .ok () { joined s with hub := hubJoined s } := by
  have set_will : setWill s = .ok ()
      { s with node := { s.node with line := { s.node.line with will := s.node.lastWill } } } := by
    unfold setWill
    have encoded_ok : encoded s.node.config.discovery.will s = .ok s.node.lastWill s := by
      rw [encode_will ok.host]
      rfl
    rw [bind_ok (node_eq s), bind_ok encoded_ok]
    rfl
  have join : attach { s with node := { s.node with
      line := { s.node.line with will := s.node.lastWill } } } = .ok () (joined s) :=
    attach_eq steady
  have client : (joined s).node.line.client = s.node.line.client := by
    cases h : s.node.line.inbox with
    | some inbox => rw [joined_of_connected h]
    | none => rw [joined_of_lost h]
  let renewed_hub := renewed s.node.line.client s.node.subscriptions.brokerTopics (joined s).hub
  have renews : renew (joined s).node.subscriptions.brokerTopics (joined s) =
      .ok () { joined s with hub := renewed_hub } := by
    have := renew_ok (joined s).node.subscriptions.brokerTopics (s := joined s) steady
      (isConnected_joined attached)
    rw [client] at this
    exact this
  have connected : ({ joined s with hub := renewed_hub } : Station).isConnected = true := by
    rw [← isConnected_joined attached]
    exact Line.isConnected_congr (clients_renewed ..)
  have starts := startDiscovery_connected (s := { joined s with hub := renewed_hub }) steady
    connected ⟨ok.host, ok.keys⟩
  unfold connect
  rw [bind_ok set_will, bind_ok join, bind_ok (node_eq _), bind_ok renews, starts]
  dsimp only
  rw [client]
  rfl

/-- What joining leaves as it is. -/
theorem joined_keeps (s : Station) :
    (joined s).node.config = s.node.config ∧ (joined s).node.subscriptions = s.node.subscriptions ∧
      (joined s).node.discovery = s.node.discovery ∧ (joined s).node.table = s.node.table := by
  cases hi : s.node.line.inbox with
  | some inbox =>
    rw [joined_of_connected hi]
    exact ⟨rfl, rfl, rfl, rfl⟩
  | none =>
    rw [joined_of_lost hi]
    exact ⟨rfl, rfl, rfl, rfl⟩

theorem clients_hubJoined : (hubJoined s).broker.clients = (joined s).hub.broker.clients := by
  have listening : ∀ hub : Hub,
      (hub.subscribe s.node.config.discovery.filter s.node.line.client .atLeastOnce).broker.clients =
        hub.broker.clients := fun hub => Broker.clients_subscribe ..
  unfold hubJoined
  dsimp only
  split
  · rw [listening, clients_renewed]
  · rw [Hub.broker_publish, Broker.clients_publish, listening, clients_renewed]

theorem attached_rejoined (attached : s.Attached) :
    ({ joined s with hub := hubJoined s } : Station).Attached := by
  have before := attached_joined attached
  refine ⟨before.client, ?_, ?_⟩
  · show ((hubJoined s).broker.clients.get? _).map _ = _
    rw [clients_hubJoined]
    exact before.inbox
  · show ∀ r, (hubJoined s).broker.clients.get? _ = some r → _
    rw [clients_hubJoined]
    exact before.will

theorem isConnected_rejoined (attached : s.Attached) :
    ({ joined s with hub := hubJoined s } : Station).isConnected = true := by
  rw [Station.isConnected_eq_isSome (attached_rejoined attached), ← isConnected_joined attached,
    Station.isConnected_eq_isSome (attached_joined attached)]

/-! ## Leaving -/

/-- The hub after a node has left: its endpoints at the broker are closed and, if its
line was connected, it has said that it leaves and taken leave. -/
def hubLeft (s : Station) : Hub :=
  let hub := hubWithoutAll s s.node.subscriptions.byTopic.entries
  if s.isConnected then (hub.publish s.node.farewell).cleanup s.node.line.client true else hub

/-- What a node has after it has left: no subscriptions and no routes, and nothing
advertised if its line was connected. -/
structure Left (s : Station) (n : Node) : Prop where
  config : n.config = s.node.config
  line : n.line = { s.node.line with inbox := none }
  subscriptions : n.subscriptions = .empty
  advertised : n.discovery.advertised =
    if s.isConnected then .empty else s.node.discovery.advertised
  announced : n.discovery.announced = s.node.discovery.announced
  table : n.table = .empty

theorem clients_hubLeft :
    (hubLeft s).broker.clients.get? s.node.line.client =
      if s.isConnected then none else s.hub.broker.clients.get? s.node.line.client := by
  unfold hubLeft
  dsimp only
  split
  · rw [Hub.broker_cleanup, Broker.clients_cleanup, KeyMap.get?_erase, if_pos rfl]
  · rw [clients_hubWithoutAll]

theorem attached_left (attached : s.Attached) {n : Node} (left : Left s n)
    (network : DirectNetwork) : Station.Attached ⟨n, hubLeft s, network, s.outage⟩ := by
  have id : n.id = s.node.id := congrArg (fun c : NodeConfig => c.discovery.nodeId) left.config
  refine Station.attached_of_lost ?_ (by rw [left.line]) ?_
  · show n.line.client = n.id
    rw [left.line, id]
    exact attached.client
  · show (hubLeft s).broker.clients.get? n.id = none
    rw [id, ← attached.client, clients_hubLeft]
    split
    · rfl
    · next lost =>
      rw [attached.client]
      exact Station.unknown_of_lost attached (by simpa using lost)

theorem isConnected_left (attached : s.Attached) {n : Node} (left : Left s n)
    (network : DirectNetwork) : Station.isConnected ⟨n, hubLeft s, network, s.outage⟩ = false := by
  rw [Station.isConnected_eq_isSome (attached_left attached left network)]
  show n.line.inbox.isSome = false
  rw [left.line]
  rfl

theorem isConnected_hubWithoutAll (records : List (String × Subscription Callback)) :
    s.node.line.isConnected (hubWithoutAll s records) = s.isConnected :=
  Line.isConnected_congr (clients_hubWithoutAll records)

theorem endAll_ok (steady : s.Steady) :
    ∃ network, endAll s = .ok ()
      { s with
        node := s.node.withSubscriptions .empty
        hub := hubWithoutAll s s.node.subscriptions.byTopic.entries
        network := network } := by
  obtain ⟨network, tears⟩ := teardownAll_ok s.node.subscriptions.byTopic.entries
    (s := { s with node := s.node.withSubscriptions .empty }) steady
  refine ⟨network, ?_⟩
  unfold endAll
  rw [bind_ok (node_eq s)]
  show (changeNode _ >>= fun _ => teardownAll s.node.subscriptions.byTopic.entries) s = _
  rw [bind_ok (changeNode_eq _ s)]
  exact tears

theorem announceDeparture_connected (steady : s.Steady) (connected : s.isConnected = true)
    (host : s.node.config.discovery.host ≠ "") :
    announceDeparture s = .ok ()
      { s with node := s.node.withAdvertised .empty, hub := s.hub.publish s.node.farewell } := by
  let silent : Station := { s with node := s.node.withAdvertised .empty }
  have encoded_ok : encoded silent.node.config.discovery.departure silent =
      .ok s.node.farewell silent := by
    rw [show silent.node.config.discovery.departure = s.node.config.discovery.departure from rfl,
      encode_farewell host]
    rfl
  unfold announceDeparture
  rw [bind_ok (changeNode_eq _ s), bind_ok (node_eq _)]
  show (encoded silent.node.config.discovery.departure >>= fun m => post m) silent = _
  rw [bind_ok encoded_ok]
  exact post_connected (s := silent) steady connected _

theorem detach_of_attached (steady : s.Steady) {inbox : Nat} (h : s.node.line.inbox = some inbox) :
    detach s = .ok ()
      { s with
        node := { s.node with line := { s.node.line with inbox := none } }
        hub := s.hub.cleanup s.node.line.client true } := by
  have line : s.node.line.disconnect s.hub =
      ({ s.node.line with inbox := none }, s.hub.cleanup s.node.line.client true) := by
    unfold Line.disconnect
    rw [h]
  rw [detach_eq steady, line]

theorem detach_of_lost (steady : s.Steady) (h : s.node.line.inbox = none) :
    detach s = .ok () { s with node := { s.node with line := { s.node.line with inbox := none } } } := by
  have line : s.node.line.disconnect s.hub = ({ s.node.line with inbox := none }, s.hub) := by
    rw [Line.with_inbox_none h]
    unfold Line.disconnect
    rw [h]
  rw [detach_eq steady, line]

theorem forgetRoutes_ok (s : Station) :
    ∃ sessions, forgetRoutes s =
      .ok () { s with node := { s.node with table := .empty, sessions := sessions } } :=
  ⟨_, rfl⟩

theorem disconnect_ok (steady : s.Steady) (attached : s.Attached)
    (host : s.node.config.discovery.host ≠ "") :
    ∃ n network, disconnect s = .ok () ⟨n, hubLeft s, network, s.outage⟩ ∧ Left s n := by
  obtain ⟨network, ends⟩ := endAll_ok steady
  let ended : Station :=
    { s with
      node := { s.node.withSubscriptions .empty with replySequences := .empty }
      hub := hubWithoutAll s s.node.subscriptions.byTopic.entries
      network := network }
  have connected : ended.isConnected = s.isConnected :=
    isConnected_hubWithoutAll (s := s) s.node.subscriptions.byTopic.entries
  unfold disconnect
  rw [bind_ok ends, bind_ok (changeNode_eq _ _)]
  show ∃ n network, (isConnected >>= fun up =>
    if up then attempt announceDeparture >>= fun _ => detach >>= fun _ => forgetRoutes
    else detach >>= fun _ => forgetRoutes) ended = EStateM.Result.ok () ⟨n, _, network, _⟩ ∧ _
  rw [bind_ok (isConnected_eq ended), connected]
  cases up : s.isConnected with
  | true =>
    obtain ⟨inbox, hi⟩ : ∃ inbox, s.node.line.inbox = some inbox :=
      Option.isSome_iff_exists.1 ((Station.isConnected_eq_isSome attached).symm.trans up)
    let silent : Station :=
      { ended with
        node := ended.node.withAdvertised .empty
        hub := ended.hub.publish ended.node.farewell }
    have spoken : announceDeparture ended = .ok () silent :=
      announceDeparture_connected (s := ended) steady (connected.trans up) host
    have leaves := detach_of_attached (s := silent) steady hi
    rw [if_pos rfl, bind_ok (attempt_ok spoken), bind_ok leaves]
    obtain ⟨sessions, forgets⟩ := forgetRoutes_ok _
    refine ⟨{ silent.node with
      line := { s.node.line with inbox := none }
      table := .empty
      sessions := sessions }, network, forgets.trans ?_, rfl, rfl, rfl, (if_pos up).symm, rfl, rfl⟩
    unfold hubLeft
    rw [up]
    rfl
  | false =>
    have leaves := detach_of_lost (s := ended) steady ((Station.inbox_eq_none_iff attached).2 up)
    rw [if_neg Bool.false_ne_true, bind_ok leaves]
    obtain ⟨sessions, forgets⟩ := forgetRoutes_ok _
    refine ⟨{ ended.node with
      line := { s.node.line with inbox := none }
      table := .empty
      sessions := sessions }, network, forgets.trans ?_, rfl, rfl, rfl, ?_, rfl, rfl⟩
    · unfold hubLeft
      rw [up]
      rfl
    · rw [up]
      rfl

/-- The hub after the line of a node was lost. -/
def hubLost (s : Station) : Hub :=
  match s.node.line.inbox with
  | none => s.hub
  | some inbox => (s.hub.cleanup s.node.line.client false).closeInbox inbox

theorem hubLost_of_lost (h : s.node.line.inbox = none) : hubLost s = s.hub := by
  unfold hubLost
  rw [h]

theorem hubLost_of_inbox {inbox : Nat} (h : s.node.line.inbox = some inbox) :
    hubLost s = (s.hub.cleanup s.node.line.client false).closeInbox inbox := by
  unfold hubLost
  rw [h]

theorem clients_hubLost {inbox : Nat} (h : s.node.line.inbox = some inbox) :
    (hubLost s).broker.clients = s.hub.broker.clients.erase s.node.line.client := by
  rw [hubLost_of_inbox h]
  exact Broker.clients_cleanup ..

/-- The node after its line was lost. -/
def cutOff (n : Node) (events : List NodeEvent) : Node :=
  { n with line := { n.line with inbox := none }, events := events }

theorem attached_lost (attached : s.Attached) (events : List NodeEvent) :
    Station.Attached { s with node := s.node.cutOff events, hub := hubLost s } := by
  refine Station.attached_of_lost attached.client rfl ?_
  show (hubLost s).broker.clients.get? s.node.id = none
  cases hi : s.node.line.inbox with
  | none =>
    rw [hubLost_of_lost hi]
    exact Station.unknown_of_lost attached ((Station.inbox_eq_none_iff attached).1 hi)
  | some inbox =>
    rw [clients_hubLost hi, ← attached.client, KeyMap.get?_erase, if_pos rfl]

theorem isConnected_lost (attached : s.Attached) (events : List NodeEvent) :
    Station.isConnected { s with node := s.node.cutOff events, hub := hubLost s } = false := by
  rw [Station.isConnected_eq_isSome (attached_lost attached events)]
  rfl

theorem abort_ok (s : Station) :
    ∃ events, abort s = .ok () { s with node := s.node.cutOff events, hub := hubLost s } := by
  have run : abort s = .ok ()
      { s with
        node :=
          if (s.node.line.abort s.hub).2.2 then
            { s.node with line := (s.node.line.abort s.hub).1 }.emit
              (.controlLost Line.abortReason)
          else { s.node with line := (s.node.line.abort s.hub).1 }
        hub := (s.node.line.abort s.hub).2.1 } := rfl
  rw [run]
  cases h : s.node.line.inbox with
  | none =>
    have lost : s.node.line.abort s.hub = ({ s.node.line with inbox := none }, s.hub, false) := by
      rw [Line.with_inbox_none h]
      unfold Line.abort
      rw [h]
    exact ⟨s.node.events, by rw [lost, hubLost_of_lost h]; rfl⟩
  | some inbox =>
    have lost : s.node.line.abort s.hub = ({ s.node.line with inbox := none },
        (s.hub.cleanup s.node.line.client false).closeInbox inbox, true) := by
      unfold Line.abort
      rw [h]
    exact ⟨s.node.events ++ [.controlLost Line.abortReason],
      by rw [lost, hubLost_of_inbox h]; rfl⟩

end Node

end TopicMesh
