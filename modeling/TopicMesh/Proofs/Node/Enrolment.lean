import TopicMesh.Proofs.Discovery.Topics
import TopicMesh.Proofs.Node.Advertising
import TopicMesh.Proofs.Node.Asking

/-!
# Through which filters a broker lists a node

A node keeps a record of each subscription that it has made at the broker, and the
broker keeps its own list.  The two are kept by different rules: the node takes any
topic that is not reserved, and the broker takes valid filters only, which the node is
told when its call has already succeeded.

Every move keeps a node **enrolled** (`Enrolled`): what the broker lists it for is the
discovery filter or has a broker record, and nothing is listed while the line is down.
That the discovery filter is listed while the line is up (`Tuned`) is kept by every call
that does not let the line come or go, and made by `connect`.

So a connected node is listed through the discovery filter and through those topics of
its broker records that are valid filters: **the broker lists every record just if every
record's topic is a valid filter** (`enrolled_exactly`).
-/

namespace TopicMesh

open Node Act

namespace Node

variable {s : Station}

/-- A topic for answers ends in a digit, and so is not the discovery filter. -/
theorem replyTopic_ne_filter (c : DiscoveryConfig) (topic id : String) (request : Nat) :
    replyTopic topic id request ≠ c.filter := by
  intro same
  have ends := congrArg (fun t => t.toList.getLast?) same
  have plus : c.filter.toList = (c.topicBase.toList ++ ['/']) ++ ['+'] := by
    rw [DiscoveryConfig.filter_eq, String.toList_append, String.toList_append]
    rfl
  rw [toList_replyTopic, plus, List.getLast?_concat] at ends
  rcases List.eq_nil_or_concat (Nat.toDigits 10 request) with none_left | ⟨front, last, digits⟩
  · rw [none_left, List.getLast?_concat] at ends
    cases ends
  · rw [digits, List.concat_eq_append, ← List.cons_append, ← List.append_assoc,
      List.getLast?_concat] at ends
    obtain rfl := Option.some.inj ends
    have there : '+' ∈ Nat.toDigits 10 request := by
      rw [digits, List.concat_eq_append]
      exact List.mem_concat_self
    have digit := Text.isDigit_of_mem_toDigits there
    cases digit

/-- A topic that is reserved is not subscribed. -/
theorem after_subscribe_reserved {topic : String}
    (reserved : isReserved s.node.config.discovery topic = true) (callback : Callback)
    (protocols : ProtocolSet) (qos : QoS) :
    after (subscribe topic callback protocols qos) s = s := by
  unfold subscribe
  rcases checkTopic_cases (s := s) topic with ⟨topic_ok, -⟩ | ⟨e, fails⟩
  · rw [after_bind_ok topic_ok]
    rcases checkProtocols_cases (s := s) protocols with ⟨protocols_ok, -⟩ | ⟨e, fails⟩
    · rw [after_bind_ok protocols_ok, after_bind_ok (node_eq s), if_pos reserved]
      rfl
    · exact after_bind_error fails
  · exact after_bind_error fails

/-- Who leaves has no line afterwards, whatever fails on the way. -/
theorem inbox_disconnect (steady : s.Steady) : (after disconnect s).node.line.inbox = none := by
  have detached : ∀ t : Station, t.Steady →
      (after (detach >>= fun _ => forgetRoutes) t).node.line.inbox = none := by
    intro t steady
    cases h : t.node.line.inbox with
    | some inbox =>
      obtain ⟨sessions, forgets⟩ := forgetRoutes_ok { t with
        node := { t.node with line := { t.node.line with inbox := none } }
        hub := t.hub.cleanup t.node.line.client true }
      rw [after_bind_ok (detach_of_attached steady h), after_ok forgets]
    | none =>
      obtain ⟨sessions, forgets⟩ := forgetRoutes_ok { t with
        node := { t.node with line := { t.node.line with inbox := none } } }
      rw [after_bind_ok (detach_of_lost steady h), after_ok forgets]
  obtain ⟨network, ends⟩ := endAll_ok steady
  unfold disconnect
  rw [after_bind_ok ends, after_bind_ok (changeNode_eq _ _), after_bind_ok (isConnected_eq _)]
  split
  · rw [after_bind_ok (attempt_eq announceDeparture _)]
    exact detached _ ((course_announceDeparture (L := Call.disconnect.license s.node)
      (s := { s with
        node := { s.node.withSubscriptions .empty with replySequences := .empty }
        hub := hubWithoutAll s s.node.subscriptions.byTopic.entries
        network := network }) steady).steady steady)
  · exact detached _ steady

end Node

namespace Station

variable {L : License} {s s' : Station}

/-! ## What is listed -/

/-- Whether a topic has a record that the broker serves. -/
def Brokered (s : Station) (topic : String) : Prop :=
  ∃ record, s.node.subscriptions.get? topic = some record ∧ record.endpoint = .broker

theorem Brokered.congr {topic : String} (brokered : s.Brokered topic)
    (same : s'.node.subscriptions.get? topic = s.node.subscriptions.get? topic) :
    s'.Brokered topic := by
  obtain ⟨record, found, at_broker⟩ := brokered
  exact ⟨record, same.trans found, at_broker⟩

/-- A callback that joins a record leaves every endpoint where it is. -/
theorem Brokered.joined {topic other : String} {record : Subscription Callback}
    (brokered : s.Brokered other) (found : s.node.subscriptions.get? topic = some record)
    (callback : Callback) :
    Brokered { s with node := s.node.withRecord topic (record.join callback) } other := by
  by_cases same : topic = other
  · subst same
    obtain ⟨record', found', at_broker⟩ := brokered
    cases found.symm.trans found'
    exact ⟨_, (get?_withRecord ..).trans (if_pos rfl),
      (record.endpoint_join callback).trans at_broker⟩
  · exact brokered.congr ((get?_withRecord ..).trans (if_neg same))

/-- A client that was cleaned up is listed nowhere. -/
theorem unlisted_cleanup (hub : Hub) (client filter : String) (graceful : Bool) :
    (hub.cleanup client graceful).broker.subscribed filter client = false := by
  rw [Hub.broker_cleanup, Broker.subscribed_cleanup, decide_eq_true rfl]
  exact Bool.and_false _

/-- The records whose endpoints were closed are not listed, and nothing else is struck. -/
theorem subscribed_hubWithoutAll (records : List (String × Subscription Callback)) (filter : String) :
    (hubWithoutAll s records).broker.subscribed filter s.node.line.client = true ↔
      s.hub.broker.subscribed filter s.node.line.client = true ∧
        (s.isConnected = true → ∀ record, (filter, record) ∈ records →
          record.endpoint ≠ .broker) := by
  unfold hubWithoutAll
  generalize s.hub = hub
  induction records generalizing hub with
  | nil => exact ⟨fun listed => ⟨listed, fun _ _ none => nomatch none⟩, And.left⟩
  | cons r rest ih =>
    rw [List.foldl_cons, ih, subscribed_hubWithout, Bool.and_eq_true, Bool.not_eq_true',
      decide_eq_false_iff_not]
    constructor
    · rintro ⟨⟨listed, spared⟩, others⟩
      refine ⟨listed, fun up record there at_broker => ?_⟩
      rcases List.mem_cons.1 there with rfl | later
      · exact spared ⟨⟨at_broker, up⟩, rfl, rfl⟩
      · exact others up record later at_broker
    · rintro ⟨listed, direct⟩
      refine ⟨⟨listed, fun ⟨⟨at_broker, up⟩, here, _⟩ => ?_⟩, fun up record later =>
        direct up record (List.mem_cons_of_mem r later)⟩
      exact direct up r.2 (List.mem_cons.2 (.inl (Prod.ext here.symm rfl))) at_broker

/-- Whether the broker lists a node for reasons only, and its records if it can. -/
structure Enrolled (s : Station) : Prop where
  moored : s.Moored
  listed : s.Listed
  /-- No record is about the discovery filter. -/
  unshared : s.node.subscriptions.get? s.node.config.discovery.filter = none
  meant : ∀ filter, s.hub.broker.subscribed filter s.node.id = true →
    s.node.line.inbox.isSome = true ∧ Filter.isValid filter = true ∧
      (filter = s.node.config.discovery.filter ∨ s.Brokered filter)

/-- Whether an attached node is listed through the discovery filter. -/
def Tuned (s : Station) : Prop :=
  s.node.line.inbox.isSome = true →
    s.hub.broker.subscribed s.node.config.discovery.filter s.node.id = true

/-- Being enrolled is about the node's line and records, its client and its filters. -/
theorem Enrolled.congr (enrolled : s.Enrolled) (config : s'.node.config = s.node.config)
    (line : s'.node.line = s.node.line) (subscriptions : s'.node.subscriptions = s.node.subscriptions)
    (client : s'.hub.broker.clients.get? s.node.id = s.hub.broker.clients.get? s.node.id)
    (same : ∀ filter, s'.hub.broker.subscribed filter s.node.id =
      s.hub.broker.subscribed filter s.node.id) : s'.Enrolled where
  moored := enrolled.moored.congr config line client
  listed := enrolled.listed.congr config (congrArg Line.inbox line) subscriptions same
  unshared := by
    rw [config, subscriptions]
    exact enrolled.unshared
  meant filter listed := by
    have id : s'.node.id = s.node.id := congrArg (fun c : NodeConfig => c.discovery.nodeId) config
    rw [id, same] at listed
    unfold Brokered
    rw [line, config, subscriptions]
    exact enrolled.meant filter listed

theorem Tuned.congr (tuned : s.Tuned) (config : s'.node.config = s.node.config)
    (line : s'.node.line = s.node.line)
    (same : ∀ filter, s'.hub.broker.subscribed filter s.node.id =
      s.hub.broker.subscribed filter s.node.id) : s'.Tuned := by
  have id : s'.node.id = s.node.id := congrArg (fun c : NodeConfig => c.discovery.nodeId) config
  intro up
  rw [line] at up
  rw [config, id, same]
  exact tuned up

theorem Course.config (course : Course L s s') : s'.node.config = s.node.config :=
  course.keeps (P := fun t => t.node.config = s.node.config)
    (fun _ _ move same => move.config.trans same) rfl

theorem tuned_of_lost (lost : s.node.line.inbox = none) : s.Tuned := by
  intro up
  rw [lost] at up
  cases up

theorem Move.unshared (move : Move L s s')
    (joins : ∀ c, ¬L.joins s.node.config.discovery.filter c)
    (unshared : s.node.subscriptions.get? s.node.config.discovery.filter = none) :
    s'.node.subscriptions.get? s'.node.config.discovery.filter = none := by
  rw [move.config]
  exact move.course.free joins unshared

/-- **A move lists a node for reasons only.** -/
theorem Move.meant (move : Move L s s') (enrolled : s.Enrolled) {filter : String}
    (listed : s'.hub.broker.subscribed filter s'.node.id = true) :
    s'.node.line.inbox.isSome = true ∧ Filter.isValid filter = true ∧
      (filter = s'.node.config.discovery.filter ∨ s'.Brokered filter) := by
  have client := enrolled.moored.client
  have attached : s.isConnected = s.node.line.inbox.isSome := enrolled.moored.isConnected
  rw [move.id] at listed
  cases move with
  | aside => exact enrolled.meant filter listed
  | posted => exact enrolled.meant filter listed
  | renewed filter' qos up known =>
    rw [Hub.broker_subscribe, Broker.subscribed_subscribe, Bool.or_eq_true,
      decide_eq_true_eq] at listed
    rcases listed with listed | ⟨valid, rfl, -⟩
    · exact enrolled.meant filter listed
    · exact ⟨attached ▸ up, valid, known⟩
  | joined topic callback record found =>
    obtain ⟨up, valid, reason⟩ := enrolled.meant filter listed
    exact ⟨up, valid, reason.imp_right fun brokered => brokered.joined found callback⟩
  | opened topic callback endpoint qos advertised network up fresh =>
    rw [subscribed_hubWith, Bool.or_eq_true, decide_eq_true_eq] at listed
    rcases listed with listed | ⟨at_broker, valid, rfl, -⟩
    · obtain ⟨up, valid, reason⟩ := enrolled.meant filter listed
      refine ⟨up, valid, reason.imp_right fun brokered => brokered.congr ?_⟩
      have other : topic ≠ filter := by
        rintro rfl
        obtain ⟨record, found, -⟩ := brokered
        cases fresh.symm.trans found
      exact (get?_withRecord ..).trans (if_neg other)
    · exact ⟨attached ▸ up, valid, .inr ⟨_, (get?_withRecord ..).trans (if_pos rfl), at_broker⟩⟩
  | closed topic record network found =>
    rw [closed_hub, subscribed_hubWithout, Bool.and_eq_true, Bool.not_eq_true',
      decide_eq_false_iff_not] at listed
    obtain ⟨up, valid, reason⟩ := enrolled.meant filter listed.1
    refine ⟨up, valid, reason.imp_right fun brokered => brokered.congr ?_⟩
    have other : topic ≠ filter := by
      rintro rfl
      obtain ⟨record', found', at_broker⟩ := brokered
      cases found.symm.trans found'
      exact listed.2 ⟨⟨at_broker, attached.trans up⟩, rfl, client⟩
    exact (get?_withoutRecord ..).trans (if_neg other)
  | emptied network =>
    rw [← client] at listed
    obtain ⟨before, direct⟩ := (subscribed_hubWithoutAll ..).1 listed
    rw [client] at before
    obtain ⟨up, valid, reason⟩ := enrolled.meant filter before
    refine ⟨up, valid, .inl (reason.resolve_right fun ⟨record, found, at_broker⟩ => ?_)⟩
    exact direct (attached.trans up) record (KeyMap.mem_entries_iff.2 found) at_broker
  | willed => exact enrolled.meant filter listed
  | attached _ vacant =>
    rw [← client] at listed
    rcases (subscribed_renewed_iff ..).1 listed with before | ⟨valid, qos, there⟩
    · -- nothing was listed while the line was down
      rw [client] at before
      obtain ⟨up, -⟩ := enrolled.meant filter before
      rw [vacant] at up
      cases up
    · obtain ⟨record, found, at_broker, -⟩ := mem_brokerTopics.1 there
      exact ⟨rfl, valid, .inr ⟨record, found, at_broker⟩⟩
  | detached inbox =>
    rw [← client] at listed
    cases (unlisted_cleanup ..).symm.trans listed
  | lost events =>
    dsimp only at listed
    cases h : s.node.line.inbox with
    | none =>
      rw [hubLost_of_lost h] at listed
      obtain ⟨up, -⟩ := enrolled.meant filter listed
      rw [h] at up
      cases up
    | some inbox =>
      rw [hubLost_of_inbox h, Hub.broker_closeInbox, ← client] at listed
      cases (unlisted_cleanup ..).symm.trans listed
  | forgot => exact enrolled.meant filter listed

/-- What a node is enrolled for stays so in the course of a call, unless the call is about
the discovery filter. -/
theorem Course.enrolled (course : Course L s s')
    (joins : ∀ c, ¬L.joins s.node.config.discovery.filter c) (enrolled : s.Enrolled) :
    s'.Enrolled := by
  refine (course.keeps (P := fun t => t.node.config = s.node.config ∧ t.Enrolled)
    (fun t t' move both => ?_) ⟨rfl, enrolled⟩).2
  obtain ⟨config, enrolled⟩ := both
  have apart : ∀ c, ¬L.joins t.node.config.discovery.filter c := by
    rw [config]
    exact joins
  exact ⟨move.config.trans config, move.moored enrolled.moored,
    move.listed enrolled.moored enrolled.listed, move.unshared apart enrolled.unshared,
    fun filter => move.meant enrolled⟩

/-! ## Listening to announcements -/

/-- The discovery filter is struck only with the line. -/
theorem Move.tuned (move : Move L s s') (stays : ¬L.roams)
    (unshared : s.node.subscriptions.get? s.node.config.discovery.filter = none)
    (tuned : s.Tuned) : s'.Tuned := by
  intro up
  rw [(move.settled stays).1] at up
  rw [move.config]
  refine move.subscribed_of_spared stays (fun record found => ?_) (tuned up)
  cases unshared.symm.trans found

theorem Course.tuned (course : Course L s s') (stays : ¬L.roams)
    (joins : ∀ c, ¬L.joins s.node.config.discovery.filter c)
    (unshared : s.node.subscriptions.get? s.node.config.discovery.filter = none)
    (tuned : s.Tuned) : s'.Tuned := by
  refine (course.keeps (P := fun t => t.node.config = s.node.config ∧
    t.node.subscriptions.get? t.node.config.discovery.filter = none ∧ t.Tuned)
    (fun t t' move all => ?_) ⟨rfl, unshared, tuned⟩).2.2
  obtain ⟨config, unshared, tuned⟩ := all
  have apart : ∀ c, ¬L.joins t.node.config.discovery.filter c := by
    rw [config]
    exact joins
  exact ⟨move.config.trans config, move.unshared apart unshared, move.tuned stays unshared tuned⟩

/-- What a node may do beside its calls: it announces itself. -/
def announcing : License :=
  ⟨fun _ _ => False, fun _ => False, fun _ => False, False⟩

/-- A connected node that starts discovery listens to announcements, even if it cannot
make its own. -/
theorem tuned_startDiscovery (steady : s.Steady) (moored : s.Moored)
    (base : PlainBase s.node.config.discovery.topicBase) (up : s.isConnected = true)
    (unshared : s.node.subscriptions.get? s.node.config.discovery.filter = none) :
    (after startDiscovery s).Tuned := by
  let listening : Station :=
    { s with hub := s.hub.subscribe s.node.config.discovery.filter s.node.line.client .atLeastOnce }
  have tuned : listening.Tuned := by
    intro _
    show (s.hub.subscribe _ _ _).broker.subscribed s.node.config.discovery.filter s.node.id = true
    rw [Hub.broker_subscribe, Broker.subscribed_subscribe,
      decide_eq_true ⟨DiscoveryConfig.isValid_filter base, rfl, moored.client⟩, Bool.or_true]
  unfold startDiscovery
  rw [after_bind_ok (node_eq s), after_bind_ok (subscribeFilter_connected steady up _ _)]
  split
  · exact tuned
  · exact (course_announce (L := announcing) (s := listening) steady).tuned not_false
      (fun _ => not_false) unshared tuned

/-- **Who connects listens to announcements**, even if it cannot make its own. -/
theorem tuned_connect (steady : s.Steady) (enrolled : s.Enrolled) (tuned : s.Tuned)
    (base : PlainBase s.node.config.discovery.topicBase) : (after connect s).Tuned := by
  cases vacant : s.node.line.inbox with
  | none =>
    rcases connect_of_lost steady vacant with stays | ⟨will, own, run⟩
    · rw [stays]
      exact tuned
    · rw [run]
      have course := course_readmitted (L := Call.connect.license s.node) vacant vacant own
      have moored : (readmitted s will).Moored :=
        course.keeps (P := Moored) (fun _ _ move before => move.moored before) enrolled.moored
      exact tuned_startDiscovery (s := readmitted s will) steady moored base
        (isConnected_readmitted s will) enrolled.unshared
  | some inbox =>
    unfold connect
    rcases setWill_cases s with ⟨e, fails⟩ | ⟨will, own, sets⟩
    · rw [after_bind_error fails]
      exact tuned
    · let sworn : Station :=
        { s with node := { s.node with line := { s.node.line with will := will } } }
      let again : Station := { sworn with
        hub := renewed sworn.node.line.client sworn.node.subscriptions.brokerTopics sworn.hub }
      have moored : sworn.Moored :=
        (Move.willed (L := Call.connect.license s.node) will own).moored enrolled.moored
      have attached : sworn.node.line.inbox.isSome = true := congrArg Option.isSome vacant
      have up : sworn.isConnected = true := moored.isConnected.trans attached
      have moored' : again.Moored := moored.congr rfl rfl (by rw [clients_renewed])
      rw [after_bind_ok sets, after_bind_ok (attach_of_attached (s := sworn) steady vacant),
        after_bind_ok (node_eq sworn), after_bind_ok (renew_ok _ (s := sworn) steady up)]
      exact tuned_startDiscovery (s := again) steady moored' base (moored'.isConnected.trans attached)
        enrolled.unshared

/-! ## Histories -/

/-- Whether others leave the node's client and its filters alone, and the line's calls do
not fail by themselves. -/
def Happening.Apart (s : Station) : Happening → Prop
  | elsewhere hub _ outage =>
    hub.broker.clients.get? s.node.id = s.hub.broker.clients.get? s.node.id ∧
      (∀ filter, hub.broker.subscribed filter s.node.id = s.hub.broker.subscribed filter s.node.id) ∧
      ∀ call, outage.line call = none
  | _ => True

/-- The stations that are reached from a start while others keep apart, each with its
history, newest first. -/
inductive Comes (start : Station) : List Event → Station → Prop
  | start : Comes start [] start
  | step {past : List Event} {s : Station} {h : Happening} : Comes start past s → h.Apart s →
    Comes start (⟨s, h, h.result s⟩ :: past) (h.result s)

/-- Whether a node that has just been made is attached to a hub that has no client of its
name. -/
structure Unheard (s : Station) : Prop where
  steady : s.Steady
  node : s.node = .new s.node.config
  unknown : s.hub.broker.clients.get? s.node.id = none
  unlisted : ∀ filter, s.hub.broker.subscribed filter s.node.id = false

/-- What is kept by everything that happens to a node. -/
structure InStep (base : String) (s : Station) : Prop where
  steady : s.Steady
  below : s.node.config.discovery.topicBase = base
  enrolled : s.Enrolled
  tuned : s.Tuned

variable {base : String}

theorem inStep_start (unheard : s.Unheard) : InStep s.node.config.discovery.topicBase s := by
  have line : s.node.line = .new s.node.id := by rw [unheard.node]; rfl
  have none_yet : s.node.subscriptions = .empty := by rw [unheard.node]; rfl
  refine ⟨unheard.steady, rfl, ⟨⟨?_, ?_, ?_, ?_⟩, ?_, ?_, ?_⟩, ?_⟩
  · rw [line]
    rfl
  · rw [line, Hub.inboxOf, unheard.unknown]
    rfl
  · intro w given
    rw [line] at given
    cases given
  · intro r w known
    rw [unheard.unknown] at known
    cases known
  · intro _ topic record found
    rw [none_yet] at found
    cases found
  · rw [none_yet]
    rfl
  · intro filter listed
    rw [unheard.unlisted] at listed
    cases listed
  · exact tuned_of_lost (by rw [line]; rfl)

/-- A call that neither lets the line come or go nor is about the discovery filter. -/
theorem InStep.course (inStep : InStep base s) (course : Course L s s') (stays : ¬L.roams)
    (joins : ∀ c, ¬L.joins s.node.config.discovery.filter c) : InStep base s' where
  steady := course.steady inStep.steady
  below := by rw [course.config, inStep.below]
  enrolled := course.enrolled joins inStep.enrolled
  tuned := course.tuned stays joins inStep.enrolled.unshared inStep.tuned

theorem InStep.congr (inStep : InStep base s) (steady : s'.Steady)
    (config : s'.node.config = s.node.config) (line : s'.node.line = s.node.line)
    (subscriptions : s'.node.subscriptions = s.node.subscriptions)
    (client : s'.hub.broker.clients.get? s.node.id = s.hub.broker.clients.get? s.node.id)
    (same : ∀ filter, s'.hub.broker.subscribed filter s.node.id =
      s.hub.broker.subscribed filter s.node.id) : InStep base s' where
  steady := steady
  below := by rw [config, inStep.below]
  enrolled := inStep.enrolled.congr config line subscriptions client same
  tuned := inStep.tuned.congr config line same

theorem inStep_call (inStep : InStep base s) (plain : PlainBase base) (c : Call) :
    InStep base (after c.act s) := by
  have course := course_call inStep.steady c
  have below : (after c.act s).node.config.discovery.topicBase = base := by
    rw [course.config, inStep.below]
  cases c with
  | connect =>
    exact ⟨course.steady inStep.steady, below, course.enrolled (fun _ => not_false) inStep.enrolled,
      tuned_connect inStep.steady inStep.enrolled inStep.tuned (inStep.below ▸ plain)⟩
  | subscribe topic callback protocols qos =>
    by_cases about : topic = s.node.config.discovery.filter
    · have reserved : isReserved s.node.config.discovery topic = true := by
        rw [isReserved, about, DiscoveryConfig.isDiscoveryTopic_filter, Bool.or_true]
      rw [show after (Call.subscribe topic callback protocols qos).act s = s from
        after_subscribe_reserved reserved callback protocols qos]
      exact inStep
    · exact inStep.course course not_false fun _ joins => about joins.1.symm
  | unsubscribe topic => exact inStep.course course not_false fun _ => not_false
  | disconnect =>
    exact ⟨course.steady inStep.steady, below, course.enrolled (fun _ => not_false) inStep.enrolled,
      tuned_of_lost (inbox_disconnect inStep.steady)⟩
  | abort =>
    obtain ⟨events, run⟩ := abort_ok s
    have lost : (after Call.abort.act s).node.line.inbox = none :=
      congrArg (fun t : Station => t.node.line.inbox) (after_ok run)
    exact ⟨course.steady inStep.steady, below, course.enrolled (fun _ => not_false) inStep.enrolled,
      tuned_of_lost lost⟩

/-- A request subscribes a topic for answers. -/
theorem inStep_request (inStep : InStep base s) (topic : String) (payload : Bytes) (qos : QoS)
    (correlation : Option String) (callback : String) :
    InStep base (after (Node.request topic payload qos correlation callback) s) := by
  let job := Job.request topic payload qos correlation callback
  obtain ⟨config, line, subscriptions, -, -⟩ := Job.prepare_keeps s.node job
  have prepared : InStep base { s with node := job.prepare s.node } :=
    inStep.congr inStep.steady config line subscriptions rfl fun _ => rfl
  refine prepared.course (course_job inStep.steady job) not_false fun c joins => ?_
  rw [show ({ s with node := job.prepare s.node } : Station).node.config = s.node.config from
    config] at joins
  exact replyTopic_ne_filter _ _ _ _ joins.2.1.symm

theorem inStep_step (inStep : InStep base s) (plain : PlainBase base) {h : Happening}
    (apart : h.Apart s) : InStep base (h.result s) := by
  cases h with
  | call c => exact inStep_call inStep plain c
  | request topic payload qos correlation callback =>
    exact inStep_request inStep topic payload qos correlation callback
  | chores topics =>
    let license : License := ⟨fun _ _ => False, (· ∈ topics), fun _ => False, False⟩
    exact inStep.course (L := license) (course_doChores topics inStep.steady fun _ due => due)
      not_false fun _ => not_false
  | frame f =>
    obtain ⟨config, line, subscriptions, -⟩ := s.node.onFrame_keeps f
    exact inStep.congr inStep.steady config line subscriptions rfl fun _ => rfl
  | arrival d =>
    obtain ⟨finished, chores, invoked, same⟩ := s.node.deliver_eq d
    have keeps : (s.node.deliver d).config = s.node.config ∧
        (s.node.deliver d).line = s.node.line ∧
        (s.node.deliver d).subscriptions = s.node.subscriptions := by
      rw [same]
      exact ⟨rfl, rfl, rfl⟩
    exact inStep.congr inStep.steady keeps.1 keeps.2.1 keeps.2.2 rfl fun _ => rfl
  | elsewhere hub network outage =>
    obtain ⟨client, same, steady⟩ := apart
    exact inStep.congr steady rfl rfl rfl client same

theorem inStep_run {start : Station} {past : List Event} (unheard : start.Unheard)
    (plain : PlainBase start.node.config.discovery.topicBase) (comes : Comes start past s) :
    InStep start.node.config.discovery.topicBase s := by
  induction comes with
  | start => exact inStep_start unheard
  | step _ apart ih => exact inStep_step ih plain apart

theorem comes_runOf (start : Station) (calls : List Call) :
    Comes start (runOf start calls).1 (runOf start calls).2 := by
  have extend : ∀ (calls : List Call) (run : List Event × Station), Comes start run.1 run.2 →
      Comes start ((calls.map Happening.call).foldl happens run).1
        ((calls.map Happening.call).foldl happens run).2 := by
    intro calls
    induction calls with
    | nil => exact fun _ comes => comes
    | cons c rest ih => exact fun run comes => ih _ (.step comes trivial)
  exact extend calls ([], start) .start

/-! ## The broker's list -/

/-- Whether the broker lists a node through the discovery filter and the topics of its
broker records, and through nothing else. -/
def ListsRecords (s : Station) : Prop :=
  ∀ filter, s.hub.broker.subscribed filter s.node.id = true ↔
    filter = s.node.config.discovery.filter ∨ s.Brokered filter

/-- **A connected node is listed through the discovery filter and the topics of its broker
records that are valid filters**; so through all of them just if all of them are valid. -/
theorem enrolled_exactly {start : Station} {past : List Event} (unheard : start.Unheard)
    (plain : PlainBase start.node.config.discovery.topicBase) (comes : Comes start past s)
    (up : s.isConnected = true) :
    (∀ filter, s.hub.broker.subscribed filter s.node.id = true ↔
      filter = s.node.config.discovery.filter ∨
        s.Brokered filter ∧ Filter.isValid filter = true) ∧
    (s.ListsRecords ↔ ∀ topic, s.Brokered topic → Filter.isValid topic = true) := by
  have inStep := inStep_run unheard plain comes
  have attached : s.node.line.inbox.isSome = true :=
    inStep.enrolled.moored.isConnected.symm.trans up
  have exactly : ∀ filter, s.hub.broker.subscribed filter s.node.id = true ↔
      filter = s.node.config.discovery.filter ∨
        s.Brokered filter ∧ Filter.isValid filter = true := by
    intro filter
    constructor
    · intro listed
      obtain ⟨-, valid, reason⟩ := inStep.enrolled.meant filter listed
      exact reason.imp_right fun brokered => ⟨brokered, valid⟩
    · rintro (rfl | ⟨⟨record, found, at_broker⟩, valid⟩)
      · exact inStep.tuned attached
      · exact inStep.enrolled.listed attached filter record found at_broker valid
  refine ⟨exactly, fun lists topic brokered => ?_, fun valid filter => ?_⟩
  · obtain ⟨-, valid, -⟩ := inStep.enrolled.meant topic ((lists topic).2 (.inr brokered))
    exact valid
  · rw [exactly]
    exact or_congr_right ⟨And.left, fun brokered => ⟨brokered, valid filter brokered⟩⟩

theorem unheard_lone (lastWill : Bool) : (lone lastWill).Unheard :=
  ⟨fun _ => rfl, rfl, rfl, fun _ => rfl⟩

/-- A subscription at the broker. -/
def following (topic : String) : Call :=
  .subscribe topic ⟨"c", none⟩ (.only .broker) .atMostOnce

/-- Records are listed again after the line was lost, the discovery filter too. -/
theorem enrolled_after_rejoining :
    let s := (runOf (lone true) [.connect, following "t", .abort, .connect]).2
    s.isConnected = true ∧ s.Brokered "t" ∧
      (∀ filter, s.hub.broker.subscribed filter s.node.id = true ↔
        filter = s.node.config.discovery.filter ∨
          s.Brokered filter ∧ Filter.isValid filter = true) ∧
      (s.ListsRecords ↔ ∀ topic, s.Brokered topic → Filter.isValid topic = true) :=
  ⟨by decide +kernel, ⟨_, rfl, rfl⟩, enrolled_exactly (unheard_lone true)
    ⟨by decide +kernel, by decide +kernel⟩ (comes_runOf ..) (by decide +kernel)⟩

/-- A subscription with a wildcard inside a level succeeds, and the broker does not list
it. -/
theorem not_always_enrolled :
    ¬∀ (start s : Station) (past : List Event), start.Unheard →
      PlainBase start.node.config.discovery.topicBase → Comes start past s →
      s.isConnected = true → LastSucceeded past → s.ListsRecords := by
  intro always
  have lists := always _ _ _ (unheard_lone true) ⟨by decide +kernel, by decide +kernel⟩
    (comes_runOf _ [.connect, following "a+b"]) (by decide +kernel)
    (by decide +kernel : succeeds _ _ = true) "a+b"
  have unlisted := lists.2 (.inr ⟨_, rfl, rfl⟩)
  revert unlisted
  decide +kernel

end Station

end TopicMesh
