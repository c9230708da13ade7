import TopicMesh.Proofs.Node.Asking
import TopicMesh.Proofs.Node.AtWork

/-!
# What a node says to others

The owner of a node speaks to others in three ways (`Saying`): by publishing, by asking
and by answering.  Only the first two name their topic; an answer goes to the topic that
came with the question.

Whatever is said, the broker is asked to relay at most one message, on a topic that does
not depend on the payload (`Saying.topic?`).  Beside it nothing happens at the hub but
that an asking node subscribes the answers (`hub_said`).  In particular no announcement
is made.
-/

namespace TopicMesh

open Node Act

namespace Station

variable {L : License} {s s' : Station}

/-- **A node whose line is down does nothing at the hub**, unless its line comes. -/
theorem Course.hub_of_lost (course : Course L s s') (stays : ¬L.roams)
    (lost : s.isConnected = false) : s'.hub = s.hub := by
  refine (course.keeps (P := fun t => t.hub = s.hub ∧ t.isConnected = false)
    (fun t t' move both => ?_) ⟨rfl, lost⟩).1
  obtain ⟨same, lost⟩ := both
  have down : t.isConnected ≠ true := fun up => Bool.false_ne_true (lost.symm.trans up)
  cases move with
  | aside => exact ⟨same, lost⟩
  | posted m up => exact absurd up down
  | renewed filter qos up => exact absurd up down
  | joined => exact ⟨same, lost⟩
  | opened topic callback endpoint qos advertised network up => exact absurd up down
  | closed topic record network =>
    have untouched : hubWithout t t.hub topic record.endpoint = t.hub := if_neg fun both => down both.2
    rw [closed_hub, untouched]
    exact ⟨same, (isConnected_closed topic record network).trans lost⟩
  | emptied network may => exact absurd may stays
  | willed => exact ⟨same, lost⟩
  | attached may => exact absurd may stays
  | detached inbox may => exact absurd may stays
  | lost events may => exact absurd may stays
  | forgot may => exact absurd may stays

end Station

namespace Node

/-! ## Publications -/

section Lodgers

variable {P : Station → Prop}
  (settled : ∀ (s : Station) (l : Lodging), P s → P { s with node := s.node.withLodging l })

include settled

theorem keeps_sessionFor (topic : String) (r : RouteEntry Nat) : Keeps P (sessionFor topic r) := by
  refine keeps_node.bind fun n => ?_
  rcases n.table.sessionOrInsert n.hasClosed topic r.host r.port n.nextSession with ⟨table, found⟩
  cases found with
  | none => exact keeps_pure none
  | some found =>
    obtain ⟨session, isNew⟩ := found
    exact .ite ((keeps_changeNode fun s h =>
      settled s ⟨table, _, s.node.nextSession + 1⟩ h).bind fun _ => keeps_pure _) (keeps_pure _)

theorem keeps_give (session : Nat) (f : Frame) : Keeps P (give session f) := by
  refine keeps_changeNode fun s h => ?_
  split
  · exact h
  · exact settled s (s.node.lodging.given f session) h

theorem keeps_publishPeers (topic : String) (payload : Bytes) (routes : List (RouteEntry Nat)) :
    Keeps P (publishPeers topic payload routes) := by
  induction routes with
  | nil => exact keeps_pure ()
  | cons r rest ih =>
    refine .ite ((keeps_sessionFor settled topic r).bind fun session => ?_) ih
    cases session with
    | none => exact ih
    | some session => exact keeps_node.bind fun _ => (keeps_give settled session _).bind fun _ => ih

end Lodgers

/-- What follows the broker's part of a publication changes events, routes, sessions and
the network only. -/
theorem publishElsewhere_keeps (topic : String) (payload : Bytes) (protocols : ProtocolSet)
    (routes : List (RouteEntry Nat)) (s : Station) :
    let s' := after (Station.publishElsewhere topic payload protocols routes) s
    s'.node.config = s.node.config ∧ s'.node.line = s.node.line ∧ s'.outage = s.outage ∧
      s'.hub = s.hub := by
  let P (t : Station) : Prop :=
    t.node.config = s.node.config ∧ t.node.line = s.node.line ∧ t.outage = s.outage ∧ t.hub = s.hub
  have directs : Keeps P (publishDirect topic payload protocols.split.1 routes) := fun t h => by
    rw [after_ok (Station.publishDirect_ok ..)]
    exact h
  have peers : Keeps P (publishPeers topic payload routes) :=
    keeps_publishPeers (fun _ _ h => h) topic payload routes
  exact (directs.bind fun _ => .ite peers (keeps_pure ())) s ⟨rfl, rfl, rfl, rfl⟩

/-- What a publication does at the hub, and that it leaves configuration and line alone. -/
theorem publish_effect (topic : String) (payload : Bytes) (protocols : ProtocolSet) (qos : QoS)
    (retain : Bool) (s : Station) :
    let s' := after (publish topic payload protocols qos retain) s
    s'.node.config = s.node.config ∧ s'.node.line = s.node.line ∧ s'.outage = s.outage ∧
      s'.hub = if (topic ≠ "" ∧ protocols.isEmpty = false ∧ s.node.asksBroker topic protocols = true) ∧
          s.brokerFault = none then s.hub.publish (.plain topic payload qos retain)
        else s.hub := by
  dsimp only
  by_cases named : topic = ""
  · subst named
    rw [after_error (Station.publish_empty ..), if_neg fun both => both.1.1 rfl]
    exact ⟨rfl, rfl, rfl, rfl⟩
  cases wanted : protocols.isEmpty with
  | true =>
    rw [after_error (Station.publish_unwanted named payload wanted qos retain),
      if_neg fun both => Bool.noConfusion both.1.2.1]
    exact ⟨rfl, rfl, rfl, rfl⟩
  | false =>
    rw [after_congr (Station.publish_run named payload wanted qos retain)]
    obtain ⟨config, line, outage, hub⟩ := publishElsewhere_keeps topic payload protocols
      (s.node.table.lookup topic)
      (s.told topic payload qos retain (s.node.asksBroker topic protocols))
    refine ⟨config, line, outage, hub.trans ?_⟩
    show (if (s.node.asksBroker topic protocols && s.brokerFault.isNone) = true then _ else _) = _
    refine if_congr ?_ rfl rfl
    rw [Bool.and_eq_true, Option.isNone_iff_eq_none]
    exact and_congr_left' ⟨fun asks => ⟨named, rfl, asks⟩, fun all => all.2.2⟩

end Node

/-- **What a node's owner says to others.** -/
inductive Saying
  | publish (topic : String) (protocols : ProtocolSet) (qos : QoS) (retain : Bool)
  | request (topic : String) (qos : QoS) (correlation : Option String) (callback : String)
  | reply (d : Delivery) (isLast : Bool)

namespace Saying

/-- The call that says it. -/
def act (payload : Bytes) : Saying → Act Unit
  | publish topic protocols qos retain => Node.publish topic payload protocols qos retain
  | request topic qos correlation callback => Node.request topic payload qos correlation callback
  | reply d isLast => Node.reply d payload isLast

/-- The topic on which the broker is asked to relay it, if it is asked. -/
def topic? (n : Node) : Saying → Option String
  | publish topic protocols _ _ =>
    if topic ≠ "" ∧ protocols.isEmpty = false ∧ n.asksBroker topic protocols = true then some topic
    else none
  | request topic _ _ _ => if topic ≠ "" then some topic else none
  | reply d _ => d.replyTopic

/-- The message that carries it on a topic. -/
def message (n : Node) (payload : Bytes) (topic : String) : Saying → Message
  | publish _ _ qos retain => .plain topic payload qos retain
  | request _ qos correlation _ =>
    question topic payload qos (replyTopic topic n.id n.nextRequest) correlation
  | reply d isLast => n.answer d payload isLast topic

theorem message_keeps (n : Node) (payload : Bytes) (topic : String) (saying : Saying) :
    (saying.message n payload topic).topic = topic ∧
      (saying.message n payload topic).payload = payload := by
  cases saying <;> exact ⟨rfl, rfl⟩

end Saying

namespace Node

variable {s : Station}

/-- The topic for answers is subscribed, unless there is a record of it. -/
theorem hub_request (steady : s.Steady) (up : s.isConnected = true) {topic : String}
    (named : topic ≠ "") (payload : Bytes) (qos : QoS) (correlation : Option String)
    (callback : String) :
    ∃ hub, (hub = s.hub ∨ ∃ filter qos, hub = s.hub.subscribe filter s.node.line.client qos) ∧
      (after (request topic payload qos correlation callback) s).hub = hub.publish
        (question topic payload qos (replyTopic topic s.node.id s.node.nextRequest) correlation) := by
  cases found : s.node.subscriptions.get? (replyTopic topic s.node.id s.node.nextRequest) with
  | none =>
    rw [after_ok (request_free steady up named payload qos correlation callback found)]
    exact ⟨_, .inr ⟨_, qos, rfl⟩, rfl⟩
  | some record =>
    let counted : Station := { s with node := s.node.counted }
    let joined : Station := { s with
      node := s.node.counted.withRecord (replyTopic topic s.node.id s.node.nextRequest)
        (record.join ⟨callback, some s.node.nextRequest⟩) }
    have joins : subscribeWith (replyTopic topic s.node.id s.node.nextRequest)
        ⟨callback, some s.node.nextRequest⟩ .broker qos false counted = .ok () joined := by
      unfold subscribeWith
      rw [bind_ok (findRecord_some (s := counted) found)]
      rfl
    rw [after_congr (request_run named payload qos correlation callback), after_bind_ok joins,
      after_ok (Station.ask_posted (post_connected (s := joined) steady up _))]
    exact ⟨s.hub, .inl rfl, rfl⟩

/-- A node whose line is down does nothing at the hub, unless its job is to connect. -/
theorem hub_lost (steady : s.Steady) (lost : s.isConnected = false) (job : Job)
    (stays : ¬(job.license s.node).roams) : (after job.act s).hub = s.hub := by
  obtain ⟨-, line, -⟩ := job.prepare_keeps s.node
  refine (course_job steady job).hub_of_lost stays ?_
  unfold Station.isConnected at lost ⊢
  dsimp only
  rw [line]
  exact lost

theorem hub_said_lost (steady : s.Steady) (lost : s.isConnected = false) (saying : Saying)
    (payload : Bytes) : (after (saying.act payload) s).hub = s.hub := by
  cases saying with
  | publish topic protocols qos retain =>
    have down : s.brokerFault ≠ none := by
      rw [Station.brokerFault, steady, lost]
      nofun
    obtain ⟨-, -, -, hub⟩ := publish_effect topic payload protocols qos retain s
    exact hub.trans (if_neg fun both => down both.2)
  | request topic qos correlation callback =>
    exact hub_lost steady lost (.request topic payload qos correlation callback) not_false
  | reply d isLast => exact hub_lost steady lost (.reply d payload isLast) not_false

theorem hub_said_connected (steady : s.Steady) (up : s.isConnected = true) (saying : Saying)
    (payload : Bytes) :
    ∃ hub, (hub = s.hub ∨ ∃ filter qos, hub = s.hub.subscribe filter s.node.line.client qos) ∧
      (after (saying.act payload) s).hub =
        (saying.topic? s.node).elim hub fun topic =>
          hub.publish (saying.message s.node payload topic) := by
  cases saying with
  | publish topic protocols qos retain =>
    have reached : s.brokerFault = none := by
      rw [Station.brokerFault, steady, up]
      rfl
    obtain ⟨-, -, -, hub⟩ := publish_effect topic payload protocols qos retain s
    refine ⟨s.hub, .inl rfl, hub.trans ?_⟩
    show _ = (if _ then some topic else none : Option String).elim _ _
    by_cases asks : topic ≠ "" ∧ protocols.isEmpty = false ∧ s.node.asksBroker topic protocols = true
    · rw [if_pos ⟨asks, reached⟩, if_pos asks]
      rfl
    · rw [if_neg fun both => asks both.1, if_neg asks]
      rfl
  | request topic qos correlation callback =>
    show ∃ hub, _ ∧ (after (request topic payload qos correlation callback) s).hub =
      (if topic ≠ "" then some topic else none : Option String).elim hub _
    by_cases named : topic = ""
    · subst named
      rw [after_error (request_empty ..), if_neg (not_not.2 rfl)]
      exact ⟨s.hub, .inl rfl, rfl⟩
    · rw [if_pos named]
      exact hub_request steady up named payload qos correlation callback
  | reply d isLast =>
    refine ⟨s.hub, .inl rfl, ?_⟩
    show (after (reply d payload isLast) s).hub = d.replyTopic.elim _ _
    cases wanted : d.replyTopic with
    | none =>
      rw [after_error (reply_unwanted wanted payload isLast)]
      rfl
    | some topic =>
      rw [after_ok (reply_connected steady up wanted payload isLast)]
      rfl

/-- **What is said does at the hub what it should, and nothing else**: the answers are
subscribed, perhaps, and one message is relayed. -/
theorem hub_said (steady : s.Steady) (saying : Saying) (payload : Bytes) :
    ∃ hub, (hub = s.hub ∨ ∃ filter qos, hub = s.hub.subscribe filter s.node.line.client qos) ∧
      (after (saying.act payload) s).hub =
        if s.isConnected then
          (saying.topic? s.node).elim hub fun topic =>
            hub.publish (saying.message s.node payload topic)
        else hub := by
  cases up : s.isConnected with
  | false => exact ⟨s.hub, .inl rfl, hub_said_lost steady up saying payload⟩
  | true => exact hub_said_connected steady up saying payload

end Node

end TopicMesh
