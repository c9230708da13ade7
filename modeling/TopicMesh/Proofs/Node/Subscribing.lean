import TopicMesh.Proofs.Node.Outcomes

/-!
# What subscribing and its end do

Subscribing a topic either changes nothing that counts, or makes a record for the
topic and announces it (`subscribeWith_cases`, `subscribed`).  The end of a
subscription takes the record out again (`endSubscription_after`, `unsubscribed`).
-/

namespace TopicMesh.Node

open Act

variable {s : Station}

/-! ## A new record -/

/-- The node with a record for a topic. -/
def withRecord (n : Node) (topic : String) (record : Subscription Callback) : Node :=
  n.withSubscriptions (n.subscriptions.byTopic.insert topic record)

theorem get?_withRecord (n : Node) (topic other : String) (record : Subscription Callback) :
    (n.withRecord topic record).subscriptions.get? other =
      if topic = other then some record else n.subscriptions.get? other :=
  KeyMap.get?_insert ..

theorem get?_withRecord_eq_some {n : Node} {topic other : String}
    {record found : Subscription Callback}
    (h : (n.withRecord topic record).subscriptions.get? other = some found) :
    other = topic ∧ found = record ∨ n.subscriptions.get? other = some found := by
  rw [get?_withRecord] at h
  split at h
  · next same => exact .inl ⟨same.symm, (Option.some.inj h).symm⟩
  · exact .inr h

/-- What a record makes the node announce. -/
def capability (record : Subscription Callback) : Capability :=
  ⟨record.endpoint.protocol, record.endpoint.port⟩

/-- The station after a record was made for a topic: its endpoint is open and, if the
topic is advertised, that is announced. -/
def subscribed (s : Station) (topic : String) (record : Subscription Callback)
    (network : DirectNetwork) : Station :=
  let n := s.node.withRecord topic record
  let hub := hubWith s topic record.qos record.endpoint
  if record.advertised then
    let n := n.withAdvertised (n.discovery.advertised.insert topic (capability record))
    { s with node := n, hub := hub.publish n.announcement, network := network }
  else { s with node := n, hub := hub, network := network }

theorem isConnected_hubWith (topic : String) (qos : QoS) (e : Endpoint) :
    s.node.line.isConnected (hubWith s topic qos e) = s.isConnected :=
  Line.isConnected_congr (clients_hubWith topic qos e)

theorem subscribed_of_advertised {topic : String} {record : Subscription Callback}
    (advertised : record.advertised = true) (network : DirectNetwork) :
    let n := (s.node.withRecord topic record).withAdvertised
      (s.node.discovery.advertised.insert topic (capability record))
    subscribed s topic record network =
      ⟨n, (hubWith s topic record.qos record.endpoint).publish n.announcement, network, s.outage⟩ :=
  if_pos advertised

theorem subscribed_of_quiet {topic : String} {record : Subscription Callback}
    (quiet : record.advertised = false) (network : DirectNetwork) :
    subscribed s topic record network =
      ⟨s.node.withRecord topic record, hubWith s topic record.qos record.endpoint, network,
        s.outage⟩ :=
  if_neg (Bool.eq_false_iff.1 quiet)

theorem clients_subscribed (topic : String) (record : Subscription Callback)
    (network : DirectNetwork) :
    (subscribed s topic record network).hub.broker.clients = s.hub.broker.clients := by
  unfold subscribed
  dsimp only
  split
  · exact clients_hubWith topic record.qos record.endpoint
  · exact clients_hubWith topic record.qos record.endpoint

theorem subscribed_keeps (s : Station) (topic : String) (record : Subscription Callback)
    (network : DirectNetwork) :
    (subscribed s topic record network).node.config = s.node.config ∧
      (subscribed s topic record network).node.line = s.node.line := by
  unfold subscribed
  dsimp only
  split <;> exact ⟨rfl, rfl⟩

theorem attached_subscribed (attached : s.Attached) (topic : String)
    (record : Subscription Callback) (network : DirectNetwork) :
    (subscribed s topic record network).Attached := by
  obtain ⟨config, line⟩ := subscribed_keeps s topic record network
  exact attached.congr config line (by rw [clients_subscribed])

theorem announceable_insert {n : Node} (ok : n.Announceable) {topic : String}
    (plain : isReservedKey topic = false) (c : Capability) :
    (n.withAdvertised (n.discovery.advertised.insert topic c)).Announceable where
  host := ok.host
  keys other h := by
    rcases KeyMap.mem_keys_of_insert h with rfl | h
    · exact plain
    · exact ok.keys other h

theorem announceable_erase {n : Node} (ok : n.Announceable) (topic : String) :
    (n.withAdvertised (n.discovery.advertised.erase topic)).Announceable where
  host := ok.host
  keys other h := ok.keys other (KeyMap.mem_keys_of_erase h)

/-- How subscribing a topic over a protocol may end. -/
inductive Subscribing (s : Station) (topic : String) (callback : Callback) (protocol : Protocol)
    (qos : QoS) (advertised : Bool) : EStateM.Result Error Station Unit → Prop
  /-- There is a record, which the callback joins. -/
  | joined (record : Subscription Callback) :
    s.node.subscriptions.get? topic = some record →
    Subscribing s topic callback protocol qos advertised
      (.ok () { s with node := s.node.withRecord topic (record.join callback) })
  /-- There is none, and none is made. -/
  | failed (e : Error) :
    s.node.subscriptions.get? topic = none →
    Subscribing s topic callback protocol qos advertised (.error e s)
  /-- A record is made. -/
  | made (endpoint : Endpoint) (network : DirectNetwork) :
    s.node.subscriptions.get? topic = none → s.isConnected = true →
    endpoint.protocol = protocol →
    Subscribing s topic callback protocol qos advertised
      (.ok () (subscribed s topic ⟨[callback], endpoint, qos, advertised⟩ network))

theorem findRecord_some {topic : String} {callback : Callback} {record : Subscription Callback}
    (h : s.node.subscriptions.get? topic = some record) :
    findRecord topic callback s =
      .ok true { s with node := s.node.withRecord topic (record.join callback) } := by
  unfold findRecord
  rw [bind_ok (node_eq s), Subscriptions.join, h]
  rfl

theorem findRecord_none {topic : String} (callback : Callback)
    (h : s.node.subscriptions.get? topic = none) :
    findRecord topic callback s =
      if s.isConnected then .ok false s else .error .notConnected s := by
  unfold findRecord
  rw [bind_ok (node_eq s), Subscriptions.join, h]
  show (isConnected >>= fun up => if up then pure false else throw Error.notConnected) s = _
  rw [bind_ok (isConnected_eq s)]
  split <;> rfl

theorem offer_none {topic : String} {callback : Callback} {endpoint : Endpoint} {qos : QoS}
    {advertised : Bool} (h : s.node.subscriptions.get? topic = none) :
    offer topic callback endpoint qos advertised s =
      .ok .inserted { s with node := s.node.withRecord topic ⟨[callback], endpoint, qos, advertised⟩ } := by
  unfold offer
  rw [bind_ok (node_eq s), Subscriptions.insert, h]
  rfl

theorem conclude_inserted (topic : String) (protocol : Protocol) (port : UInt16) (s : Station) :
    conclude topic protocol port true .inserted s =
      match advertise topic ⟨protocol, port⟩ s with
      | .ok _ s => .ok () s
      | .error e s => undo topic e s := rfl

theorem conclude_advertised {topic : String} {protocol : Protocol} {port : UInt16} {s s' : Station}
    (h : advertise topic ⟨protocol, port⟩ s = .ok () s') :
    conclude topic protocol port true .inserted s = .ok () s' := by
  rw [conclude_inserted, h]

/-- A record that cannot be announced is taken out again. -/
theorem conclude_unadvertised {topic : String} {protocol : Protocol} {port : UInt16}
    {e : Error} {s s' : Station} (h : advertise topic ⟨protocol, port⟩ s = .error e s') :
    conclude topic protocol port true .inserted s = undo topic e s' := by
  rw [conclude_inserted, h]

theorem subscribeWith_cases (steady : s.Steady) (ok : s.node.Announceable) {topic : String}
    {advertised : Bool} (plain : advertised = true → isReservedKey topic = false)
    (callback : Callback) (protocol : Protocol) (qos : QoS) :
    Subscribing s topic callback protocol qos advertised
      (subscribeWith topic callback protocol qos advertised s) := by
  unfold subscribeWith
  cases found : s.node.subscriptions.get? topic with
  | some record =>
    rw [bind_ok (findRecord_some found)]
    exact .joined record found
  | none =>
    have look := findRecord_none callback found
    cases up : s.isConnected with
    | false =>
      rw [up, if_neg Bool.false_ne_true] at look
      rw [bind_error look]
      exact .failed _ found
    | true =>
      rw [up, if_pos rfl] at look
      rw [bind_ok look, if_neg Bool.false_ne_true]
      rcases openEndpoint_cases topic protocol qos s with
        ⟨endpoint, network, opens, same⟩ | ⟨e, fails⟩
      · let record : Subscription Callback := ⟨[callback], endpoint, qos, advertised⟩
        let opened : Station := { s with hub := hubWith s topic qos endpoint, network := network }
        have up' : opened.isConnected = true := (isConnected_hubWith topic qos endpoint).trans up
        rw [bind_ok opens, bind_ok (offer_none (s := opened) found)]
        have last : conclude topic protocol endpoint.port advertised .inserted
            { opened with node := s.node.withRecord topic record } =
              .ok () (subscribed s topic record network) := by
          cases advertised with
          | false => rfl
          | true =>
            have spoken := advertise_connected
              (s := { opened with node := s.node.withRecord topic record })
              steady up' (announceable_insert (n := s.node.withRecord topic record)
                ⟨ok.host, ok.keys⟩ (plain rfl) ⟨protocol, endpoint.port⟩)
            subst same
            exact conclude_advertised spoken
        rw [show ({ opened with node := opened.node.withRecord topic record } : Station) =
          { opened with node := s.node.withRecord topic record } from rfl, last]
        exact .made endpoint network found up same
      · rw [bind_error fails]
        exact .failed e found

theorem checkTopic_ok {topic : String} (named : topic ≠ "") : checkTopic topic s = .ok () s := by
  unfold checkTopic
  rw [if_neg named]
  rfl

theorem checkTopic_empty : checkTopic "" s = .error (.invalidArgument "empty topic") s := rfl

theorem checkTopic_cases (topic : String) :
    (checkTopic topic s = .ok () s ∧ topic ≠ "") ∨ ∃ e, checkTopic topic s = .error e s := by
  by_cases named : topic = ""
  · exact .inr ⟨_, named ▸ checkTopic_empty⟩
  · exact .inl ⟨checkTopic_ok named, named⟩

theorem checkProtocols_ok {protocols : ProtocolSet} (wanted : protocols.isEmpty = false) :
    checkProtocols protocols s = .ok () s := by
  unfold checkProtocols
  rw [wanted]
  rfl

theorem checkProtocols_empty {protocols : ProtocolSet} (none : protocols.isEmpty = true) :
    checkProtocols protocols s = .error (.invalidArgument "empty protocol set") s := by
  unfold checkProtocols
  rw [none]
  rfl

theorem checkProtocols_cases (protocols : ProtocolSet) :
    (checkProtocols protocols s = .ok () s ∧ protocols.isEmpty = false) ∨
      ∃ e, checkProtocols protocols s = .error e s := by
  cases wanted : protocols.isEmpty with
  | true => exact .inr ⟨_, checkProtocols_empty wanted⟩
  | false => exact .inl ⟨checkProtocols_ok wanted, rfl⟩

theorem plain_of_not_reserved {c : DiscoveryConfig} {topic : String}
    (h : isReserved c topic = false) :
    isReservedKey topic = false ∧ c.isDiscoveryTopic topic = false :=
  Bool.or_eq_false_iff.1 h

theorem subscribe_cases (steady : s.Steady) (ok : s.node.Announceable) (topic : String)
    (callback : Callback) (protocols : ProtocolSet) (qos : QoS) :
    (∃ e, subscribe topic callback protocols qos s = .error e s) ∨
      ∃ protocol, isReserved s.node.config.discovery topic = false ∧
        Subscribing s topic callback protocol qos true
          (subscribe topic callback protocols qos s) := by
  unfold subscribe
  rcases checkTopic_cases (s := s) topic with ⟨topic_ok, -⟩ | ⟨e, fails⟩
  · rw [bind_ok topic_ok]
    rcases checkProtocols_cases (s := s) protocols with ⟨protocols_ok, -⟩ | ⟨e, fails⟩
    · rw [bind_ok protocols_ok, bind_ok (node_eq s)]
      cases reserved : isReserved s.node.config.discovery topic with
      | true =>
        rw [if_pos rfl]
        exact .inl ⟨_, rfl⟩
      | false =>
        rw [if_neg Bool.false_ne_true]
        cases preference.find? protocols.contains with
        | none => exact .inl ⟨_, rfl⟩
        | some protocol =>
          exact .inr ⟨protocol, rfl, subscribeWith_cases steady ok
            (fun _ => (plain_of_not_reserved reserved).1) callback protocol qos⟩
    · rw [bind_error fails]
      exact .inl ⟨e, rfl⟩
  · rw [bind_error fails]
    exact .inl ⟨e, rfl⟩

/-- Subscribing changes nothing, or a callback joins a record, or a record is made. -/
theorem subscribe_after (steady : s.Steady) (ok : s.node.Announceable) (topic : String)
    (callback : Callback) (protocols : ProtocolSet) (qos : QoS) :
    after (subscribe topic callback protocols qos) s = s ∨
      (∃ record, s.node.subscriptions.get? topic = some record ∧
        after (subscribe topic callback protocols qos) s =
          { s with node := s.node.withRecord topic (record.join callback) }) ∨
      ∃ record network, record.advertised = true ∧ s.isConnected = true ∧
        isReserved s.node.config.discovery topic = false ∧
        s.node.subscriptions.get? topic = none ∧
        after (subscribe topic callback protocols qos) s = subscribed s topic record network := by
  rcases subscribe_cases steady ok topic callback protocols qos with
    ⟨e, fails⟩ | ⟨protocol, reserved, outcome⟩
  · exact .inl (after_error fails)
  · generalize run : subscribe topic callback protocols qos s = result at outcome
    cases outcome with
    | joined record found => exact .inr (.inl ⟨record, found, after_ok run⟩)
    | failed e _ => exact .inl (after_error run)
    | made endpoint network fresh up _ =>
      exact .inr (.inr ⟨_, network, rfl, up, reserved, fresh, after_ok run⟩)

/-! ## The end of a record -/

/-- The node without a record for a topic. -/
def withoutRecord (n : Node) (topic : String) : Node :=
  n.withSubscriptions (n.subscriptions.byTopic.erase topic)

theorem get?_withoutRecord (n : Node) (topic other : String) :
    (n.withoutRecord topic).subscriptions.get? other =
      if topic = other then none else n.subscriptions.get? other :=
  KeyMap.get?_erase ..

theorem get?_of_withoutRecord {n : Node} {topic other : String} {found : Subscription Callback}
    (h : (n.withoutRecord topic).subscriptions.get? other = some found) :
    n.subscriptions.get? other = some found := by
  rw [get?_withoutRecord] at h
  split at h
  · cases h
  · exact h

/-- The station after the record of a topic was taken out: its endpoint is closed
and, if the topic was advertised, it is so no longer, which is announced if the line
is connected. -/
def unsubscribed (s : Station) (topic : String) (record : Subscription Callback)
    (network : DirectNetwork) : Station :=
  let n := s.node.withoutRecord topic
  let hub := hubWithout s s.hub topic record.endpoint
  if record.advertised = true ∧ n.discovery.advertised.contains topic = true then
    let n := n.withAdvertised (n.discovery.advertised.erase topic)
    { s with
      node := n
      hub := if s.isConnected then hub.publish n.announcement else hub
      network := network }
  else { s with node := n, hub := hub, network := network }

theorem clients_unsubscribed (topic : String) (record : Subscription Callback)
    (network : DirectNetwork) :
    (unsubscribed s topic record network).hub.broker.clients = s.hub.broker.clients := by
  unfold unsubscribed
  dsimp only
  split
  · split
    · exact clients_hubWithout s.hub topic record.endpoint
    · exact clients_hubWithout s.hub topic record.endpoint
  · exact clients_hubWithout s.hub topic record.endpoint

theorem unsubscribed_keeps (s : Station) (topic : String) (record : Subscription Callback)
    (network : DirectNetwork) :
    (unsubscribed s topic record network).node.config = s.node.config ∧
      (unsubscribed s topic record network).node.line = s.node.line := by
  unfold unsubscribed
  dsimp only
  split <;> exact ⟨rfl, rfl⟩

theorem attached_unsubscribed (attached : s.Attached) (topic : String)
    (record : Subscription Callback) (network : DirectNetwork) :
    (unsubscribed s topic record network).Attached := by
  obtain ⟨config, line⟩ := unsubscribed_keeps s topic record network
  exact attached.congr config line (by rw [clients_unsubscribed])

theorem isConnected_unsubscribed (attached : s.Attached) (topic : String)
    (record : Subscription Callback) (network : DirectNetwork) :
    (unsubscribed s topic record network).isConnected = s.isConnected := by
  rw [Station.isConnected_eq_isSome (attached_unsubscribed attached topic record network),
    (unsubscribed_keeps s topic record network).2, ← Station.isConnected_eq_isSome attached]

theorem steady_unsubscribed (steady : s.Steady) (topic : String) (record : Subscription Callback)
    (network : DirectNetwork) : (unsubscribed s topic record network).Steady := by
  unfold unsubscribed
  dsimp only
  split <;> exact steady

theorem announceable_unsubscribed (ok : s.node.Announceable) (topic : String)
    (record : Subscription Callback) (network : DirectNetwork) :
    (unsubscribed s topic record network).node.Announceable := by
  unfold unsubscribed
  dsimp only
  split
  · exact announceable_erase (n := s.node.withoutRecord topic) ⟨ok.host, ok.keys⟩ topic
  · exact ⟨ok.host, ok.keys⟩

theorem removeRecord_none {topic : String} (h : s.node.subscriptions.get? topic = none) :
    removeRecord topic s = .ok none s := by
  have same : s.node.withoutRecord topic = s.node := by
    unfold withoutRecord
    rw [KeyMap.erase_of_get?_eq_none h]
    rfl
  have removes : removeRecord topic s = .ok none { s with node := s.node.withoutRecord topic } := by
    unfold removeRecord
    rw [bind_ok (node_eq s), Subscriptions.remove, h]
    rfl
  rw [removes, same]

theorem endSubscription_none {topic : String} (h : s.node.subscriptions.get? topic = none) :
    endSubscription topic s = .ok () s := by
  unfold endSubscription
  rw [bind_ok (removeRecord_none h)]
  rfl

/-- The station after the record of a topic was taken out and its endpoint closed. -/
def closed (s : Station) (topic : String) (record : Subscription Callback)
    (network : DirectNetwork) : Station :=
  { s with
    node := s.node.withoutRecord topic
    hub := hubWithout s s.hub topic record.endpoint
    network := network }

theorem unsubscribed_of_quiet {topic : String} {record : Subscription Callback}
    (quiet : record.advertised = false) (network : DirectNetwork) :
    unsubscribed s topic record network = closed s topic record network :=
  if_neg fun both => Bool.eq_false_iff.1 quiet both.1

@[simp] theorem closed_node (topic : String) (record : Subscription Callback)
    (network : DirectNetwork) :
    (closed s topic record network).node = s.node.withoutRecord topic := rfl

@[simp] theorem closed_hub (topic : String) (record : Subscription Callback)
    (network : DirectNetwork) :
    (closed s topic record network).hub = hubWithout s s.hub topic record.endpoint := rfl

theorem clients_closed (topic : String) (record : Subscription Callback) (network : DirectNetwork) :
    (closed s topic record network).hub.broker.clients = s.hub.broker.clients :=
  clients_hubWithout s.hub topic record.endpoint

theorem isConnected_closed (topic : String) (record : Subscription Callback)
    (network : DirectNetwork) : (closed s topic record network).isConnected = s.isConnected :=
  Line.isConnected_congr (clients_closed topic record network)

theorem removeRecord_some {topic : String} {record : Subscription Callback}
    (h : s.node.subscriptions.get? topic = some record) :
    removeRecord topic s = .ok (some record) { s with node := s.node.withoutRecord topic } := by
  unfold removeRecord
  rw [bind_ok (node_eq s), Subscriptions.remove, h]
  rfl

theorem teardown_removed (steady : s.Steady) (topic : String) (record : Subscription Callback) :
    ∃ network, teardown topic record.endpoint { s with node := s.node.withoutRecord topic } =
      .ok () (closed s topic record network) :=
  teardown_ok (s := { s with node := s.node.withoutRecord topic }) steady topic record.endpoint

theorem endSubscription_some (steady : s.Steady) {topic : String} {record : Subscription Callback}
    (h : s.node.subscriptions.get? topic = some record) :
    ∃ network, endSubscription topic s =
      (if record.advertised then withdraw topic else pure ()) (closed s topic record network) := by
  obtain ⟨network, tears⟩ := teardown_removed steady topic record
  refine ⟨network, ?_⟩
  unfold endSubscription
  rw [bind_ok (removeRecord_some h)]
  exact bind_ok tears

theorem endSubscription_after (steady : s.Steady) (ok : s.node.Announceable) {topic : String}
    {record : Subscription Callback} (h : s.node.subscriptions.get? topic = some record) :
    ∃ network, after (endSubscription topic) s = unsubscribed s topic record network := by
  obtain ⟨network, run⟩ := endSubscription_some steady h
  let torn : Station := closed s topic record network
  have up : torn.isConnected = s.isConnected := isConnected_closed topic record network
  refine ⟨network, ?_⟩
  rw [after_congr run]
  unfold unsubscribed
  cases advertised : record.advertised with
  | false =>
    rw [if_neg Bool.false_ne_true, if_neg fun both => Bool.false_ne_true both.1]
    rfl
  | true =>
    rw [if_pos rfl]
    cases served : torn.node.discovery.advertised.contains topic with
    | false =>
      rw [after_ok (withdraw_of_not_served (s := torn) served),
        if_neg fun both => Bool.false_ne_true (served.symm.trans both.2)]
      rfl
    | true =>
      rw [withdraw_eq (s := torn) steady
        (announceable_erase (n := torn.node) ⟨ok.host, ok.keys⟩ topic) served, up]
      exact (if_pos (⟨rfl, served⟩ : true = true ∧ _)).symm

theorem unsubscribe_after (steady : s.Steady) (ok : s.node.Announceable) (topic : String) :
    after (unsubscribe topic) s = s ∨
      ∃ record network, s.node.subscriptions.get? topic = some record ∧
        after (unsubscribe topic) s = unsubscribed s topic record network := by
  have run : after (unsubscribe topic) s = s ∨
      after (unsubscribe topic) s = after (endSubscription topic) s := by
    rcases checkTopic_cases (s := s) topic with ⟨topic_ok, -⟩ | ⟨e, fails⟩
    · exact .inr (after_bind_ok topic_ok)
    · exact .inl (after_bind_error fails)
  rcases run with run | run
  · exact .inl run
  · rw [run]
    cases found : s.node.subscriptions.get? topic with
    | none => exact .inl (after_ok (endSubscription_none found))
    | some record =>
      obtain ⟨network, h⟩ := endSubscription_after steady ok found
      exact .inr ⟨record, network, rfl, h⟩

end TopicMesh.Node
