import TopicMesh.Proofs.Broker.Posting
import TopicMesh.Proofs.Node.Hearing
import TopicMesh.Proofs.Node.Subscribing

/-!
# What a node serves and what it has announced

A node **serves** what its advertised records say (`served`).  What it has
**announced** is read from the message that the broker keeps for its topic
(`announced`).

Most acts are `Calm`: they change neither, nor what the node is about to announce.
The end of an advertised subscription takes away what it served.  `Fades` is any
sequence of these two; unsubscribing, requests, chores and whatever reaches the node
from outside do no more than that, and subscribing does that or makes one record
(`subscribe_fades_or_serves`).
-/

namespace TopicMesh

open Node Act

/-- A call by which a node joins, leaves or changes what it subscribes; a lost line
counts as one. -/
inductive Node.Call
  | connect
  | subscribe (topic : String) (callback : Callback) (protocols : ProtocolSet) (qos : QoS)
  | unsubscribe (topic : String)
  | disconnect
  | abort
deriving DecidableEq

/-- What a call does. -/
def Node.Call.act : Call → Act Unit
  | connect => Node.connect
  | subscribe topic callback protocols qos => Node.subscribe topic callback protocols qos
  | unsubscribe topic => Node.unsubscribe topic
  | disconnect => Node.disconnect
  | abort => Node.abort

/-- What is announced by the message that a broker keeps. -/
def announcedIn : Option Bytes → KeyMap String Capability
  | none => .empty
  | some bytes =>
    match Announcement.decode bytes with
    | .ok a => a.carried
    | .error _ => .empty

theorem announcedIn_write {a : Announcement} (fits : a.Fits) (host : a.host ≠ "")
    (keys : ∀ topic ∈ a.topics.keys, isReservedKey topic = false) :
    announcedIn (some a.toPack.write) = a.carried := by
  unfold announcedIn
  dsimp only
  rw [Announcement.decode_encode fits (Announcement.encode_ok host keys)]
  unfold Announcement.carried
  dsimp only
  cases a.status <;> rfl

namespace Station

variable {s s' s'' : Station}

/-- How a node serves a topic: by its record, if that is advertised. -/
def served (s : Station) (topic : String) : Option Capability :=
  ((s.node.subscriptions.get? topic).filter Subscription.advertised).map capability

/-- What the broker keeps for the node's announcement topic. -/
def kept (s : Station) : Option Bytes :=
  s.hub.kept s.node.config.discovery.nodeTopic

/-- What the node has announced, as the broker keeps it. -/
def announced (s : Station) : KeyMap String Capability :=
  announcedIn s.kept

theorem served_of_get? {topic : String} {record : Subscription Callback}
    (h : s.node.subscriptions.get? topic = some record) :
    s.served topic = if record.advertised then some (capability record) else none := by
  unfold served
  rw [h]
  cases advertised : record.advertised <;> simp [Option.filter, advertised]

theorem served_of_none {topic : String} (h : s.node.subscriptions.get? topic = none) :
    s.served topic = none := by
  rw [served, h]
  rfl

/-- Whether nothing changes in what a node serves, has announced and would announce. -/
structure Calm (s s' : Station) : Prop where
  steady : s'.Steady
  config : s'.node.config = s.node.config
  line : s'.node.line = s.node.line
  served : ∀ topic, s'.served topic = s.served topic
  advertised : s'.node.discovery.advertised = s.node.discovery.advertised
  client : s'.hub.broker.clients.get? s.node.id = s.hub.broker.clients.get? s.node.id
  kept : s'.kept = s.kept

theorem Calm.refl (steady : s.Steady) : Calm s s :=
  ⟨steady, rfl, rfl, fun _ => rfl, rfl, rfl, rfl⟩

theorem Calm.attached (calm : Calm s s') (attached : s.Attached) : s'.Attached :=
  attached.congr calm.config calm.line calm.client

theorem Calm.announceable (calm : Calm s s') (ok : s.node.Announceable) : s'.node.Announceable := by
  refine ⟨?_, ?_⟩
  · rw [calm.config]
    exact ok.host
  · rw [calm.advertised]
    exact ok.keys

theorem Calm.isConnected (calm : Calm s s') (attached : s.Attached) :
    s'.isConnected = s.isConnected := by
  rw [isConnected_eq_isSome (calm.attached attached), isConnected_eq_isSome attached, calm.line]

/-! ## Calm acts -/

theorem calm_join (steady : s.Steady) {topic : String} {record : Subscription Callback}
    (found : s.node.subscriptions.get? topic = some record) (callback : Callback) :
    Calm s { s with node := s.node.withRecord topic (record.join callback) } where
  steady := steady
  config := rfl
  line := rfl
  served other := by
    unfold served
    dsimp only
    rw [get?_withRecord]
    split
    · next same =>
      rw [← same, found]
      unfold Subscription.join
      split
      · rfl
      · cases h : record.advertised <;> simp [Option.filter, h, capability]
    · rfl
  advertised := rfl
  client := rfl
  kept := rfl

theorem kept_hubWith (topic : String) (qos : QoS) (e : Endpoint) (other : String) :
    (hubWith s topic qos e).kept other = s.hub.kept other :=
  hubWith_keeps (P := fun h => h.kept other = s.hub.kept other) e (Hub.kept_subscribe ..) rfl

theorem kept_hubWithout (hub : Hub) (topic : String) (e : Endpoint) (other : String) :
    (hubWithout s hub topic e).kept other = hub.kept other :=
  hubWithout_keeps (P := fun h => h.kept other = hub.kept other) e rfl rfl

theorem served_withRecord (topic : String) (record : Subscription Callback) (hub : Hub)
    (network : DirectNetwork) (advertised : KeyMap String Capability) (other : String) :
    served ⟨(s.node.withRecord topic record).withAdvertised advertised, hub, network, s.outage⟩
        other =
      if topic = other then if record.advertised then some (capability record) else none
      else s.served other := by
  have get : (s.node.withRecord topic record).subscriptions.get? other =
      if topic = other then some record else s.node.subscriptions.get? other :=
    KeyMap.get?_insert ..
  unfold served
  show ((Subscriptions.get? (s.node.withRecord topic record).subscriptions other).filter _).map _ = _
  rw [get]
  split
  · cases h : record.advertised <;> simp [Option.filter, h]
  · rfl

theorem served_withoutRecord (topic : String) (hub : Hub) (network : DirectNetwork)
    (advertised : KeyMap String Capability) (other : String) :
    served ⟨(s.node.withoutRecord topic).withAdvertised advertised, hub, network, s.outage⟩ other =
      if topic = other then none else s.served other := by
  have get : (s.node.withoutRecord topic).subscriptions.get? other =
      if topic = other then none else s.node.subscriptions.get? other :=
    KeyMap.get?_erase ..
  unfold served
  show ((Subscriptions.get? (s.node.withoutRecord topic).subscriptions other).filter _).map _ = _
  rw [get]
  split <;> rfl

/-- A record that is not advertised makes no difference. -/
theorem calm_subscribed (steady : s.Steady) {topic : String} {record : Subscription Callback}
    (fresh : s.node.subscriptions.get? topic = none) (quiet : record.advertised = false)
    (network : DirectNetwork) : Calm s (subscribed s topic record network) := by
  rw [subscribed_of_quiet quiet]
  refine ⟨steady, rfl, rfl, fun other => ?_, rfl, ?_, kept_hubWith ..⟩
  · have := served_withRecord (s := s) topic record (hubWith s topic record.qos record.endpoint)
      network s.node.discovery.advertised other
    refine Eq.trans this ?_
    split
    · next same =>
      rw [quiet, ← same, served_of_none fresh]
      rfl
    · rfl
  · show KeyMap.get? (hubWith s topic record.qos record.endpoint).broker.clients _ = _
    rw [clients_hubWith]

theorem calm_unsubscribed (steady : s.Steady) {topic : String} {record : Subscription Callback}
    (found : s.node.subscriptions.get? topic = some record) (quiet : record.advertised = false)
    (network : DirectNetwork) : Calm s (unsubscribed s topic record network) := by
  rw [unsubscribed_of_quiet quiet]
  refine ⟨steady, rfl, rfl, fun other => ?_, rfl, ?_, kept_hubWithout ..⟩
  · have := served_withoutRecord (s := s) topic (hubWithout s s.hub topic record.endpoint)
      network s.node.discovery.advertised other
    refine Eq.trans this ?_
    split
    · next same =>
      rw [← same, served_of_get? found, quiet]
      rfl
    · rfl
  · rw [clients_closed]

theorem calm_publish (steady : s.Steady) {m : Message} (passing : m.retain = false) :
    Calm s { s with hub := s.hub.publish m } := by
  refine ⟨steady, rfl, rfl, fun _ => rfl, rfl, rfl, ?_⟩
  show (s.hub.publish m).kept _ = _
  rw [Hub.kept_publish, if_neg fun both => by rw [passing] at both; cases both.1]
  rfl

/-- What reaches the node from outside leaves alone what it serves. -/
theorem calm_of_keeps (steady : s.Steady) {n : Node} (config : n.config = s.node.config)
    (line : n.line = s.node.line) (subscriptions : n.subscriptions = s.node.subscriptions)
    (advertised : n.discovery.advertised = s.node.discovery.advertised) :
    Calm s { s with node := n } := by
  refine ⟨steady, config, line, fun topic => ?_, advertised, rfl, ?_⟩
  · unfold served
    rw [subscriptions]
  · show s.hub.kept n.config.discovery.nodeTopic = s.hub.kept _
    rw [config]

theorem calm_onFrame (steady : s.Steady) (frame : ServerFrame) :
    Calm s { s with node := s.node.onFrame frame } := by
  obtain ⟨config, line, subscriptions, advertised⟩ := s.node.onFrame_keeps frame
  exact calm_of_keeps steady config line subscriptions advertised

theorem calm_deliver (steady : s.Steady) (d : Delivery) :
    Calm s { s with node := s.node.deliver d } := by
  obtain ⟨finished, chores, invoked, h⟩ := s.node.deliver_eq d
  rw [h]
  exact calm_of_keeps steady rfl rfl rfl rfl

/-! ## Fading -/

/-- Whether what a node serves has only become less, each end of an advertised
subscription being announced if the line is connected. -/
inductive Fades : Station → Station → Prop
  | calm {s s' : Station} : Calm s s' → Fades s s'
  | ended {s : Station} {topic : String} {record : Subscription Callback}
    (network : DirectNetwork) :
    s.node.subscriptions.get? topic = some record → record.advertised = true →
    Fades s (unsubscribed s topic record network)
  | trans {s s' s'' : Station} : Fades s s' → Fades s' s'' → Fades s s''

theorem fades_unsubscribed (steady : s.Steady) {topic : String} {record : Subscription Callback}
    (found : s.node.subscriptions.get? topic = some record) (network : DirectNetwork) :
    Fades s (unsubscribed s topic record network) := by
  cases advertised : record.advertised with
  | true => exact .ended network found advertised
  | false => exact .calm (calm_unsubscribed steady found advertised network)

theorem fades_endSubscription (steady : s.Steady) (ok : s.node.Announceable) (topic : String) :
    Fades s (after (endSubscription topic) s) := by
  cases found : s.node.subscriptions.get? topic with
  | none =>
    rw [after_ok (endSubscription_none found)]
    exact .calm (.refl steady)
  | some record =>
    obtain ⟨network, ends⟩ := endSubscription_after steady ok found
    rw [ends]
    exact fades_unsubscribed steady found network

theorem fades_unsubscribe (steady : s.Steady) (ok : s.node.Announceable) (topic : String) :
    Fades s (after (unsubscribe topic) s) := by
  rcases unsubscribe_after steady ok topic with same | ⟨record, network, found, ends⟩
  · rw [same]
    exact .calm (.refl steady)
  · rw [ends]
    exact fades_unsubscribed steady found network

/-- Subscribing makes a record that is served, or leaves things as they are. -/
theorem subscribe_fades_or_serves (steady : s.Steady) (ok : s.node.Announceable) (topic : String)
    (callback : Callback) (protocols : ProtocolSet) (qos : QoS) :
    Fades s (after (subscribe topic callback protocols qos) s) ∨
      ∃ record network, record.advertised = true ∧ s.isConnected = true ∧
        isReservedKey topic = false ∧ s.node.subscriptions.get? topic = none ∧
        after (subscribe topic callback protocols qos) s = subscribed s topic record network := by
  rcases subscribe_after steady ok topic callback protocols qos with
    same | ⟨record, found, joins⟩ | ⟨record, network, advertised, up, reserved, fresh, makes⟩
  · rw [same]
    exact .inl (.calm (.refl steady))
  · rw [joins]
    exact .inl (.calm (calm_join steady found callback))
  · exact .inr ⟨record, network, advertised, up, (plain_of_not_reserved reserved).1, fresh, makes⟩

/-! ## Requests and chores -/

theorem Fades.steady (fades : Fades s s') (steady : s.Steady) : s'.Steady := by
  induction fades with
  | calm calm => exact calm.steady
  | ended network _ _ => exact steady_unsubscribed steady _ _ network
  | trans _ _ ih ih' => exact ih' (ih steady)

theorem Fades.announceable (fades : Fades s s') (ok : s.node.Announceable) :
    s'.node.Announceable := by
  induction fades with
  | calm calm => exact calm.announceable ok
  | ended network _ _ => exact announceable_unsubscribed ok _ _ network
  | trans _ _ ih ih' => exact ih' (ih ok)

theorem after_doChores_cons (topic : String) (rest : List String) :
    after (doChores (topic :: rest)) s = after (doChores rest) (after (endSubscription topic) s) :=
  after_bind_ok (attempt_eq (endSubscription topic) s)

theorem fades_doChores (topics : List String) {s : Station} (steady : s.Steady)
    (ok : s.node.Announceable) : Fades s (after (Node.doChores topics) s) := by
  induction topics generalizing s with
  | nil => exact .calm (.refl steady)
  | cons topic rest ih =>
    have first := fades_endSubscription steady ok topic
    rw [after_doChores_cons]
    exact .trans first (ih (first.steady steady) (first.announceable ok))

/-- What a request ends with: the question is published or, if that fails, the
subscription of the answers is ended again. -/
def ask (answers : String) (m : Message) : Act Unit := fun s =>
  match post m s with
  | .ok _ s => .ok () s
  | .error e s =>
    match endSubscription answers s with
    | .ok _ s => .error e s
    | .error e s => .error e s

theorem ask_posted {answers : String} {m : Message} (h : post m s = .ok () s') :
    ask answers m s = .ok () s' := by
  unfold ask
  rw [h]

theorem after_ask_unposted {answers : String} {m : Message} {e : Error}
    (h : post m s = .error e s') :
    after (ask answers m) s = after (endSubscription answers) s' := by
  unfold after ask
  rw [h]
  dsimp only
  cases endSubscription answers s' <;> rfl

theorem fades_ask (steady : s.Steady) (ok : s.node.Announceable) (answers : String) {m : Message}
    (passing : m.retain = false) : Fades s (after (ask answers m) s) := by
  cases up : s.isConnected with
  | true =>
    rw [after_ok (ask_posted (post_connected steady up m))]
    exact .calm (calm_publish steady passing)
  | false =>
    rw [after_ask_unposted (post_lost steady up m)]
    exact fades_endSubscription steady ok answers

theorem fades_request (steady : s.Steady) (ok : s.node.Announceable) (topic : String)
    (payload : Bytes) (qos : QoS) (correlation : Option String) (callback : String) :
    Fades s (after (request topic payload qos correlation callback) s) := by
  let counted : Station := { s with node := { s.node with nextRequest := s.node.nextRequest + 1 } }
  let answers := replyTopic topic counted.node.id s.node.nextRequest
  let m : Message := { Message.plain topic payload qos false with
    reply := some ⟨answers, correlation, 0, false⟩ }
  have counts : Calm s counted := ⟨steady, rfl, rfl, fun _ => rfl, rfl, rfl, rfl⟩
  have takes : takeRequest s = .ok s.node.nextRequest counted := rfl
  have run : (request topic payload qos correlation callback) =
      (checkTopic topic >>= fun _ => takeRequest >>= fun number => Act.node >>= fun n =>
        subscribeWith (replyTopic topic n.id number) ⟨callback, some number⟩ .broker qos false >>=
          fun _ => ask (replyTopic topic n.id number)
            { Message.plain topic payload qos false with
              reply := some ⟨replyTopic topic n.id number, correlation, 0, false⟩ }) := rfl
  rw [run]
  rcases checkTopic_cases (s := s) topic with ⟨topic_ok, -⟩ | ⟨e, fails⟩
  · rw [after_bind_ok topic_ok, after_bind_ok takes, after_bind_ok (node_eq counted)]
    have outcome : Subscribing counted answers ⟨callback, some s.node.nextRequest⟩ .broker qos false
        (subscribeWith answers ⟨callback, some s.node.nextRequest⟩ .broker qos false counted) :=
      subscribeWith_cases (s := counted) steady ⟨ok.host, ok.keys⟩ (fun h => by cases h)
        ⟨callback, some s.node.nextRequest⟩ .broker qos
    have goes_on : ∀ t, Calm counted t → Fades s (after (ask answers m) t) := fun t calm =>
      .trans (.calm counts) (.trans (.calm calm)
        (fades_ask calm.steady (calm.announceable ⟨ok.host, ok.keys⟩) answers rfl))
    generalize subscribes : subscribeWith answers ⟨callback, some s.node.nextRequest⟩ .broker qos
      false counted = result at outcome
    cases outcome with
    | joined record found =>
      rw [after_bind_ok subscribes]
      exact goes_on _ (calm_join (s := counted) steady found _)
    | failed e _ =>
      rw [after_bind_error subscribes]
      exact .calm counts
    | made endpoint network fresh _ _ =>
      rw [after_bind_ok subscribes]
      exact goes_on _ (calm_subscribed (s := counted) steady fresh rfl network)
  · rw [after_bind_error fails]
    exact .calm (.refl steady)

end Station

end TopicMesh
