import TopicMesh.Proofs.Node.Calling
import TopicMesh.Proofs.Node.Job
import TopicMesh.Proofs.Text.Reading

/-!
# Requests, answers and chores of a connected node

The topic for the answers to a request names the request (`replyTopic_number`), so no two
requests of a node share one.  A connected node that asks is subscribed to the answers,
with the callback of that request alone, before it speaks (`request_free`).  Every answer
is published with the next number (`reply_connected`), which an answer takes that cannot
be published, too (`reply_lost`).  When the chores are done, the topics that were due are
subscribed no longer (`rid_doChores`).
-/

namespace TopicMesh

namespace Node

open Act

variable {s : Station}

/-! ## Topics for answers -/

theorem toList_replyTopic (topic id : String) (request : Nat) :
    (replyTopic topic id request).toList =
      topic.toList ++ replyMark.toList ++ id.toList ++ '-' :: Nat.toDigits 10 request := by
  have digits : (toString request).toList = Nat.toDigits 10 request := Nat.toList_repr
  have dash : "-".toList = ['-'] := rfl
  unfold replyTopic
  rw [String.toList_append, String.toList_append, String.toList_append, String.toList_append,
    digits, dash, List.append_assoc _ ['-']]
  rfl

theorem dash_not_mem_toDigits (n : Nat) : '-' ∉ Nat.toDigits 10 n := by
  intro there
  have digit := Text.isDigit_of_mem_toDigits there
  cases digit

/-- What follows the last dash is determined. -/
theorem eq_of_last_dash {front front' digits digits' : List Char} (none_left : '-' ∉ digits)
    (none_left' : '-' ∉ digits') (same : front ++ '-' :: digits = front' ++ '-' :: digits') :
    digits = digits' := by
  rcases List.append_eq_append_iff.1 same with ⟨more, rfl, rest⟩ | ⟨more, rfl, rest⟩
  · cases more with
    | nil => exact (List.cons.inj rest).2
    | cons c more =>
      have rest := (List.cons.inj rest).2
      exact absurd (rest ▸ List.mem_append_right more List.mem_cons_self) none_left
  · cases more with
    | nil => exact ((List.cons.inj rest).2).symm
    | cons c more =>
      have rest := (List.cons.inj rest).2
      exact absurd (rest ▸ List.mem_append_right more List.mem_cons_self) none_left'

/-- **The topic for answers names the request.** -/
theorem replyTopic_number {topic topic' id id' : String} {j k : Nat}
    (same : replyTopic topic id j = replyTopic topic' id' k) : j = k := by
  have same := congrArg String.toList same
  rw [toList_replyTopic, toList_replyTopic] at same
  have digits := eq_of_last_dash (dash_not_mem_toDigits j) (dash_not_mem_toDigits k) same
  have read := Text.natural?_toDigits j
  rw [digits, Text.natural?_toDigits] at read
  exact (Option.some.inj read).symm

theorem replyTopic_ne (topic id : String) (request : Nat) : replyTopic topic id request ≠ topic := by
  intro same
  have same := congrArg (fun t => t.toList.length) same
  rw [toList_replyTopic] at same
  simp only [List.length_append, List.length_cons] at same
  omega

/-! ## Asking and answering -/

/-- The record of the answers to a request. -/
def answersRecord (callback : String) (request : Nat) (qos : QoS) : Subscription Callback :=
  ⟨[⟨callback, some request⟩], .broker, qos, false⟩

/-- A new record at the broker. -/
theorem subscribeWith_broker (steady : s.Steady) (up : s.isConnected = true) {topic : String}
    (free : s.node.subscriptions.get? topic = none) (callback : Callback) (qos : QoS) :
    subscribeWith topic callback .broker qos false s =
      .ok () { s with
        node := s.node.withRecord topic ⟨[callback], .broker, qos, false⟩
        hub := s.hub.subscribe topic s.node.line.client qos } := by
  let opened : Station := { s with hub := s.hub.subscribe topic s.node.line.client qos }
  have look := findRecord_none callback free
  rw [up, if_pos rfl] at look
  have opens : openEndpoint topic .broker qos s = .ok .broker opened := by
    rw [openEndpoint_broker, bind_ok (subscribeFilter_connected steady up topic qos)]
    rfl
  unfold subscribeWith
  rw [bind_ok look, if_neg Bool.false_ne_true, bind_ok opens, bind_ok (offer_none (s := opened) free)]
  rfl

/-- **A request of a connected node**: it takes its number, subscribes the answers, and
publishes the question. -/
theorem request_free (steady : s.Steady) (up : s.isConnected = true) {topic : String}
    (named : topic ≠ "") (payload : Bytes) (qos : QoS) (correlation : Option String)
    (callback : String) :
    let answers := replyTopic topic s.node.id s.node.nextRequest
    s.node.subscriptions.get? answers = none →
    request topic payload qos correlation callback s =
      .ok () { s with
        node := s.node.counted.withRecord answers
          (answersRecord callback s.node.nextRequest qos)
        hub := (s.hub.subscribe answers s.node.line.client qos).publish
          (question topic payload qos answers correlation) } := by
  intro answers free
  let counted : Station := { s with node := s.node.counted }
  let listening : Station := { s with
    node := s.node.counted.withRecord answers (answersRecord callback s.node.nextRequest qos)
    hub := s.hub.subscribe answers s.node.line.client qos }
  have subscribes : subscribeWith answers ⟨callback, some s.node.nextRequest⟩ .broker qos false
      counted = .ok () listening :=
    subscribeWith_broker (s := counted) steady up free _ qos
  have up' : listening.isConnected = true :=
    (Line.isConnected_congr (Broker.clients_subscribe ..)).trans up
  rw [request_run named, bind_ok subscribes]
  exact Station.ask_posted (post_connected (s := listening) steady up' _)

/-- **An answer of a connected node** takes the next number and is published. -/
theorem reply_connected (steady : s.Steady) (up : s.isConnected = true) {d : Delivery}
    {topic : String} (wanted : d.replyTopic = some topic) (payload : Bytes) (isLast : Bool) :
    reply d payload isLast s =
      .ok () { s with
        node := s.node.advanced topic isLast
        hub := s.hub.publish (s.node.answer d payload isLast topic) } := by
  rw [reply_run wanted]
  exact post_connected (s := { s with node := s.node.advanced topic isLast }) steady up _

/-- **An answer of a node without a line** takes its number all the same. -/
theorem reply_lost (steady : s.Steady) (lost : s.isConnected = false) {d : Delivery}
    {topic : String} (wanted : d.replyTopic = some topic) (payload : Bytes) (isLast : Bool) :
    reply d payload isLast s =
      .error .notConnected { s with node := s.node.advanced topic isLast } := by
  rw [reply_run wanted]
  exact post_lost (s := { s with node := s.node.advanced topic isLast }) steady lost _

/-! ## Chores -/

/-- The end of a subscription rids a connected node of its topic. -/
theorem rid_closed (up : s.isConnected = true) (client : s.node.line.client = s.node.id)
    {topic : String} {record : Subscription Callback} (at_broker : record.endpoint = .broker)
    (network : DirectNetwork) : (closed s topic record network).Rid topic := by
  have same : (closed s topic record network).node.id = s.node.id := rfl
  unfold Station.Rid
  rw [same]
  refine ⟨(get?_withoutRecord ..).trans (if_pos rfl), ?_⟩
  rw [closed_hub, Station.subscribed_hubWithout, decide_eq_true ⟨⟨at_broker, up⟩, rfl, client⟩]
  exact Bool.and_false _

/-- **Chores rid a connected node of the topics that are due.** -/
theorem rid_doChores (topics : List String) {s : Station} (steady : s.Steady) (moored : s.Moored)
    (sound : s.hub.Sound) (up : s.isConnected = true) {topic : String}
    (plain : topic ≠ s.node.config.discovery.filter) {record : Subscription Callback}
    (at_broker : record.endpoint = .broker) (silent : record.advertised = false)
    (due : s.Rid topic ∨ topic ∈ topics ∧ s.Held topic record) :
    (after (doChores topics) s).Rid topic := by
  induction topics generalizing s with
  | nil =>
    rcases due with rid | ⟨none, -⟩
    · exact rid
    · cases none
  | cons first rest ih =>
    have course : Station.Course ((Call.unsubscribe first).license s.node) s
        (after (endSubscription first) s) :=
      course_endSubscription steady rfl
    obtain ⟨stirred, moored', config⟩ := course.stirred moored sound
    have up' : (after (endSubscription first) s).isConnected = true := by
      rw [moored'.isConnected, (course.settled not_false).1, ← moored.isConnected, up]
    rw [Station.after_doChores_cons]
    refine ih (course.steady steady) moored' (stirred.sound sound) up' (config ▸ plain) ?_
    rcases due with rid | ⟨listed, held⟩
    · exact .inl (course.rid not_false (fun _ => not_false) plain rid)
    · by_cases same : topic = first
      · subst same
        obtain ⟨network, run⟩ := endSubscription_some steady held.1
        rw [silent, if_neg Bool.false_ne_true] at run
        rw [after_ok run]
        exact .inl (rid_closed up moored.client at_broker network)
      · rcases List.mem_cons.1 listed with here | listed
        · exact absurd here same
        · exact .inr ⟨listed, course.held not_false (fun _ => not_false) same held⟩

end Node

end TopicMesh
