import TopicMesh.Proofs.Broker.Stirring
import TopicMesh.Proofs.Node.Course

/-!
# What a node is to the broker

A node is **moored** if the broker knows it by its own line, and if the wills that it has
set or left speak on its announcement topic (`Moored`).  Every move keeps it so, and does
at the hub what one client may do (`Move.stirred`).

While its line is attached, a node is **listed** below the topic of each record that its
broker endpoint serves (`Listed`).  Opening and closing records keeps that, and so does a
line that comes and goes, since the records are renewed as soon as it is attached.
-/

namespace TopicMesh

open Node Act

namespace Station

variable {L : License} {s s' : Station}

/-- Whether the broker knows a node by its own line, and the node's wills are its own. -/
structure Moored (s : Station) : Prop where
  client : s.node.line.client = s.node.id
  inbox : s.hub.inboxOf s.node.id = s.node.line.inbox
  will : ∀ w, s.node.line.will = some w → w.topic = s.node.config.discovery.nodeTopic
  sworn : ∀ r w, s.hub.broker.clients.get? s.node.id = some r → r.will = some w →
    w.topic = s.node.config.discovery.nodeTopic

/-- Whether an attached node is listed below the topics of its records at the broker. -/
def Listed (s : Station) : Prop :=
  s.node.line.inbox.isSome = true → ∀ topic record,
    s.node.subscriptions.get? topic = some record → record.endpoint = .broker →
      Filter.isValid topic = true → s.hub.broker.subscribed topic s.node.id = true

theorem Moored.isConnected (moored : s.Moored) : s.isConnected = s.node.line.inbox.isSome := by
  unfold Station.isConnected Line.isConnected Broker.has KeyMap.contains
  rw [moored.client, ← moored.inbox, Hub.inboxOf, Option.isSome_map, Bool.and_self]

/-- Being moored is about the node's configuration and line, and about its client. -/
theorem Moored.congr (moored : s.Moored) (config : s'.node.config = s.node.config)
    (line : s'.node.line = s.node.line)
    (client : s'.hub.broker.clients.get? s.node.id = s.hub.broker.clients.get? s.node.id) :
    s'.Moored := by
  have id : s'.node.id = s.node.id := congrArg (fun c : NodeConfig => c.discovery.nodeId) config
  refine ⟨?_, ?_, ?_, ?_⟩
  · rw [line, id, moored.client]
  · rw [id, line, ← moored.inbox, Hub.inboxOf, Hub.inboxOf, client]
  · rw [line, config]
    exact moored.will
  · rw [id, client, config]
    exact moored.sworn

theorem Move.config (move : Move L s s') : s'.node.config = s.node.config := by
  cases move <;> rfl

theorem Move.id (move : Move L s s') : s'.node.id = s.node.id :=
  congrArg (fun c : NodeConfig => c.discovery.nodeId) move.config

/-- A node whose line is gone, and whose client the broker does not know. -/
theorem moored_of_lost (moored : s.Moored) (config : s'.node.config = s.node.config)
    (line : s'.node.line = { s.node.line with inbox := none })
    (unknown : s'.hub.broker.clients.get? s.node.line.client = none) : s'.Moored := by
  have id : s'.node.id = s.node.id := congrArg (fun c : NodeConfig => c.discovery.nodeId) config
  rw [moored.client] at unknown
  refine ⟨?_, ?_, ?_, ?_⟩
  · rw [line, id]
    exact moored.client
  · rw [id, line, Hub.inboxOf, unknown]
    rfl
  · rw [line, config]
    exact moored.will
  · intro r w known
    rw [id, unknown] at known
    cases known

theorem Move.moored (move : Move L s s') (moored : s.Moored) : s'.Moored := by
  cases move with
  | aside => exact moored.congr rfl rfl rfl
  | posted m => exact moored.congr rfl rfl rfl
  | renewed filter qos =>
    exact moored.congr rfl rfl (by rw [Hub.broker_subscribe, Broker.clients_subscribe])
  | joined => exact moored.congr rfl rfl rfl
  | opened topic callback endpoint qos => exact moored.congr rfl rfl (by rw [clients_hubWith])
  | closed topic record => exact moored.congr rfl rfl (by rw [clients_closed])
  | emptied => exact moored.congr rfl rfl (by rw [clients_hubWithoutAll])
  | willed will own => exact ⟨moored.client, moored.inbox, own, moored.sworn⟩
  | attached _ vacant =>
    have registered : (Node.renewed s.node.line.client s.node.subscriptions.brokerTopics
        (s.hub.register s.node.line.client s.node.line.will).1).broker.clients.get? s.node.id =
          some ⟨s.hub.nextInbox, s.node.line.will⟩ := by
      rw [clients_renewed, Hub.broker_register, moored.client]
      exact (KeyMap.get?_insert ..).trans (if_pos rfl)
    refine ⟨moored.client, congrArg (Option.map Registration.inbox) registered, moored.will,
      fun r w found given => ?_⟩
    cases registered.symm.trans found
    exact moored.will w given
  | detached inbox =>
    refine moored_of_lost moored rfl rfl ?_
    rw [Hub.broker_cleanup, Broker.clients_cleanup, KeyMap.get?_erase, if_pos rfl]
  | lost events =>
    cases h : s.node.line.inbox with
    | none =>
      exact moored.congr rfl (Line.with_inbox_none h) (by rw [hubLost_of_lost h])
    | some inbox =>
      refine moored_of_lost moored rfl rfl ?_
      rw [clients_hubLost h, KeyMap.get?_erase, if_pos rfl]
  | forgot => exact moored.congr rfl rfl rfl

/-! ## At the hub -/

/-- What a node may publish in the course of a call. -/
def Speech (L : License) (n : Node) (m : Message) : Prop :=
  n.Announces m ∨ L.posts m

theorem stirred_renewed {posts : Message → Prop} {roams : Prop} (client : String)
    (topics : List (String × QoS)) (hub : Hub) :
    hub.Stirred client posts roams (renewed client topics hub) :=
  renewed_keeps (P := hub.Stirred client posts roams) .refl
    fun _ stirred t _ => .subscribed t.1 t.2 stirred

theorem stirred_hubWith {posts : Message → Prop} {roams : Prop} (topic : String) (qos : QoS)
    (endpoint : Endpoint) :
    s.hub.Stirred s.node.line.client posts roams (hubWith s topic qos endpoint) :=
  hubWith_keeps (P := s.hub.Stirred s.node.line.client posts roams) endpoint
    (.subscribed topic qos .refl) .refl

theorem stirred_hubWithout {posts : Message → Prop} {roams : Prop} (hub : Hub) (topic : String)
    (endpoint : Endpoint) :
    hub.Stirred s.node.line.client posts roams (hubWithout s hub topic endpoint) :=
  hubWithout_keeps (P := hub.Stirred s.node.line.client posts roams) endpoint
    (.unsubscribed topic .refl) .refl

theorem stirred_hubWithoutAll {posts : Message → Prop} {roams : Prop}
    (records : List (String × Subscription Callback)) :
    s.hub.Stirred s.node.line.client posts roams (hubWithoutAll s records) :=
  hubWithoutAll_keeps (P := s.hub.Stirred s.node.line.client posts roams) .refl
    fun hub stirred r _ => stirred.trans (stirred_hubWithout hub r.1 r.2.endpoint)

theorem stirred_hubLost (moored : s.Moored) (sound : s.hub.Sound) (may : L.roams) :
    s.hub.Stirred s.node.id (Speech L s.node) L.roams (hubLost s) := by
  cases h : s.node.line.inbox with
  | none =>
    rw [hubLost_of_lost h]
    exact .refl
  | some inbox =>
    rw [hubLost_of_inbox h, moored.client]
    -- after the clean-up nobody reads the inbox, so it may be closed
    have unread := sound.unread_cleanup (moored.inbox.trans h)
    rw [Hub.cleanup_ungraceful]
    cases left : (s.hub.broker.clients.get? s.node.id).bind Registration.will with
    | none => exact .closed inbox (.cleaned .refl may) may unread
    | some w =>
      obtain ⟨r, found, given⟩ := Option.bind_eq_some_iff.1 left
      exact .closed inbox
        (.published w.toMessage (.cleaned .refl may) (.inl ⟨moored.sworn r w found given, rfl⟩))
        may unread

/-- **A move does at the hub what one client may do.** -/
theorem Move.stirred (move : Move L s s') (moored : s.Moored) (sound : s.hub.Sound) :
    s.hub.Stirred s.node.id (Speech L s.node) L.roams s'.hub := by
  have client := moored.client
  cases move with
  | aside => exact .refl
  | posted m _ may => exact .published m .refl may
  | renewed filter qos =>
    rw [client]
    exact .subscribed filter qos .refl
  | joined => exact .refl
  | opened topic callback endpoint qos =>
    rw [← client]
    exact stirred_hubWith topic qos endpoint
  | closed topic record =>
    rw [← client]
    exact stirred_hubWithout s.hub topic record.endpoint
  | emptied =>
    rw [← client]
    exact stirred_hubWithoutAll _
  | willed => exact .refl
  | attached may =>
    rw [client]
    exact Hub.Stirred.trans (.registered s.node.line.will .refl may) (stirred_renewed ..)
  | detached inbox may =>
    rw [client]
    exact .cleaned .refl may
  | lost events may => exact stirred_hubLost moored sound may
  | forgot => exact .refl

/-- What a node's calls do at the hub, and what they leave as it is. -/
theorem Course.stirred (course : Course L s s') (moored : s.Moored) (sound : s.hub.Sound) :
    s.hub.Stirred s.node.id (Speech L s.node) L.roams s'.hub ∧ s'.Moored ∧
      s'.node.config = s.node.config := by
  induction course with
  | refl => exact ⟨.refl, moored, rfl⟩
  | @tail t t' _ move ih =>
    obtain ⟨stirred, moored', config⟩ := ih
    have id : t.node.id = s.node.id := congrArg (fun c : NodeConfig => c.discovery.nodeId) config
    have more := move.stirred moored' (stirred.sound sound)
    have same : Speech L t.node = Speech L s.node := by
      funext m
      unfold Speech Announces
      rw [config]
    rw [id, same] at more
    exact ⟨stirred.trans more, move.moored moored', move.config.trans config⟩

/-! ## Being listed -/

theorem subscribed_hubWith (topic : String) (qos : QoS) (endpoint : Endpoint) (filter client : String) :
    (hubWith s topic qos endpoint).broker.subscribed filter client =
      (s.hub.broker.subscribed filter client ||
        decide (endpoint = .broker ∧ Filter.isValid topic = true ∧ topic = filter ∧
          s.node.line.client = client)) := by
  unfold hubWith
  by_cases at_broker : endpoint = .broker
  · rw [if_pos at_broker, Hub.broker_subscribe, Broker.subscribed_subscribe]
    simp [at_broker]
  · rw [if_neg at_broker, decide_eq_false fun all => at_broker all.1, Bool.or_false]

theorem subscribed_hubWithout (hub : Hub) (topic : String) (endpoint : Endpoint)
    (filter client : String) :
    (hubWithout s hub topic endpoint).broker.subscribed filter client =
      (hub.broker.subscribed filter client &&
        !decide ((endpoint = .broker ∧ s.isConnected = true) ∧ topic = filter ∧
          s.node.line.client = client)) := by
  unfold hubWithout
  by_cases struck : endpoint = .broker ∧ s.isConnected = true
  · rw [if_pos struck, Hub.broker_unsubscribe, Broker.subscribed_unsubscribe]
    simp [struck]
  · rw [if_neg struck, decide_eq_false fun all => struck all.1]
    exact (Bool.and_true _).symm

/-- **A move strikes a node only with its line**, or below the topic of a record that it
closes. -/
theorem Move.subscribed_of_spared (move : Move L s s') {topic : String} (stays : ¬L.roams)
    (spared : ∀ record, s.node.subscriptions.get? topic = some record → ¬L.ends topic)
    (listed : s.hub.broker.subscribed topic s.node.id = true) :
    s'.hub.broker.subscribed topic s'.node.id = true := by
  rw [move.id]
  cases move with
  | renewed filter qos =>
    rw [Hub.broker_subscribe, Broker.subscribed_subscribe, listed, Bool.true_or]
  | opened t callback endpoint qos => rw [subscribed_hubWith, listed, Bool.true_or]
  | closed t record network found may =>
    have other : t ≠ topic := by
      rintro rfl
      exact spared record found may
    rw [closed_hub, subscribed_hubWithout, listed, decide_eq_false fun all => other all.2.1]
    rfl
  | emptied _ may => exact absurd may stays
  | attached may => exact absurd may stays
  | detached _ may => exact absurd may stays
  | lost _ may => exact absurd may stays
  | _ => exact listed

/-- Being listed is about the node's line and records, and about its subscriptions. -/
theorem Listed.congr (listed : s.Listed) (config : s'.node.config = s.node.config)
    (inbox : s'.node.line.inbox = s.node.line.inbox)
    (subscriptions : s'.node.subscriptions = s.node.subscriptions)
    (subscribed : ∀ topic, s'.hub.broker.subscribed topic s.node.id =
      s.hub.broker.subscribed topic s.node.id) : s'.Listed := by
  intro up topic record found at_broker valid
  have id : s'.node.id = s.node.id := congrArg (fun c : NodeConfig => c.discovery.nodeId) config
  rw [inbox] at up
  rw [subscriptions] at found
  rw [id, subscribed]
  exact listed up topic record found at_broker valid

/-- **A move keeps a node listed.** -/
theorem Move.listed (move : Move L s s') (moored : s.Moored) (listed : s.Listed) : s'.Listed := by
  have client := moored.client
  cases move with
  | aside => exact listed
  | posted => exact listed
  | renewed filter qos =>
    intro up topic record found at_broker valid
    show (s.hub.subscribe filter s.node.line.client qos).broker.subscribed topic s.node.id = true
    rw [Hub.broker_subscribe, Broker.subscribed_subscribe,
      listed up topic record found at_broker valid, Bool.true_or]
  | joined topic callback record found =>
    intro up other record' found' at_broker valid
    rw [get?_withRecord] at found'
    split at found'
    · next same =>
      cases found'
      rw [Subscription.endpoint_join] at at_broker
      exact listed up other record (same ▸ found) at_broker valid
    · exact listed up other record' found' at_broker valid
  | opened topic callback endpoint qos advertised network =>
    intro up other record found at_broker valid
    show (hubWith s topic qos endpoint).broker.subscribed other s.node.id = true
    rw [get?_withRecord] at found
    rw [subscribed_hubWith]
    split at found
    · next same =>
      subst same
      cases found
      rw [decide_eq_true ⟨at_broker, valid, rfl, client⟩, Bool.or_true]
    · rw [listed up other record found at_broker valid, Bool.true_or]
  | closed topic record network =>
    intro up other record' found at_broker valid
    show (hubWithout s s.hub topic record.endpoint).broker.subscribed other s.node.id = true
    rw [closed_node, get?_withoutRecord] at found
    rw [subscribed_hubWithout]
    split at found
    · cases found
    · next apart =>
      rw [listed up other record' found at_broker valid, decide_eq_false fun all => apart all.2.1]
      rfl
  | emptied => exact fun _ _ _ none => nomatch none
  | willed => exact listed
  | attached _ vacant =>
    intro _ topic record found at_broker valid
    refine (show s.node.id = s.node.line.client from client.symm) ▸ ?_
    exact (subscribed_renewed_iff ..).2
      (.inr ⟨valid, record.qos, mem_brokerTopics.2 ⟨record, found, at_broker, rfl⟩⟩)
  | detached => exact fun up => nomatch up
  | lost => exact fun up => nomatch up
  | forgot => exact listed

theorem Course.listed (course : Course L s s') (moored : s.Moored) (listed : s.Listed) :
    s'.Listed :=
  (course.keeps (P := fun s => s.Moored ∧ s.Listed)
    (fun _ _ move both => ⟨move.moored both.1, move.listed both.1 both.2⟩) ⟨moored, listed⟩).2

end Station

end TopicMesh
