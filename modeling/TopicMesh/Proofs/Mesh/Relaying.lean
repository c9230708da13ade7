import TopicMesh.Proofs.Mesh.Turns

/-!
# From a publication to the callbacks

Any number of nodes on one hub join, leave, lose their lines, subscribe, unsubscribe,
ask and publish, and take the frames that wait for them, in any order.  Each attached
node stays listed at the hub below the topics of its records, and no callback of it is
silent, as long as no last answer comes (`Attentive`).

So a message that somebody publishes joins the queue of every connected node that is
subscribed to its topic, once, whatever other filters of the node match
(`queue_after_post`), and once the queue is taken **it has called each callback of the
topic, once and in their order, and nobody else** (`relayed`).
-/

namespace TopicMesh

open Node Act

namespace Mesh

variable {m : Mesh} {id : String} {n : Node}

/-- Whether a turn brings no last answer, and lets only callbacks without a request
subscribe by themselves. -/
def Turn.Ordinary : Turn → Prop
  | work _ (.call (.subscribe _ callback _ _)) => callback.request = none
  | work _ (.reply _ _ isLast) => isLast = false
  | work _ (.post m) => (Delivery.ofMessage m).isLast = false
  | weather outage => ∀ id call, (outage id).line call = none
  | _ => True

/-- What holds of a node that attends to its owner. -/
structure Ready (s : Station) : Prop where
  listed : s.Listed
  numbered : s.node.HasOnly fun _ c => ∀ j, c.request = some j → j < s.node.nextRequest
  distinct : s.node.Distinct
  open_ : s.node.finished = []

/-- Whether every node attends to its owner, and no last answer is on its way. -/
structure Attentive (m : Mesh) : Prop where
  orderly : m.Orderly
  open_ended : m.hub.Carries fun d => d.isLast = false
  ready : ∀ id n, m.nodes.get? id = some n → Ready (m.station id n)

/-! ## Turns -/

theorem attentive_new (configs : List NodeConfig) (now : Int64) (firstPort : UInt16) :
    (new configs now firstPort).Attentive where
  orderly := orderly_new configs now firstPort
  open_ended := Hub.carries_empty now
  ready id n found := by
    obtain ⟨c, -, rfl, rfl⟩ := node_of_new found
    exact ⟨nofun, nofun, nofun, rfl⟩

/-- Only questions, answers that are not the last, and announcements are published. -/
theorem open_ended_of_ordinary {job : Job} (ordinary : (Turn.work id job).Ordinary)
    {message : Message} (spoken : Station.Speech (job.license n) n message) :
    (Delivery.ofMessage message).isLast = false := by
  rcases spoken with announces | posts
  · unfold Delivery.ofMessage
    rw [announces.2]
    rfl
  · rcases Job.posts_cases posts with
      ⟨asked, payload, qos, correlation, name, rfl, named, rfl⟩ |
        ⟨d, payload, isLast, topic, rfl, wanted, rfl⟩ | rfl
    · rfl
    · exact ordinary
    · exact ordinary

/-- A node is ready again after its job. -/
theorem ready_doing (attentive : m.Attentive) (found : m.nodes.get? id = some n) {job : Job}
    (ordinary : (Turn.work id job).Ordinary) : Ready (m.doing id n job) := by
  obtain ⟨moored, course, -⟩ := attentive.orderly.working found job
  obtain ⟨config, line, subscriptions, finished, -⟩ := job.prepare_keeps n
  have ready := attentive.ready id n found
  obtain ⟨finished', -, -, next⟩ := course.notes
  -- the callbacks from before, and the newcomer of this job
  let known (c : Callback) : Prop :=
    (∀ j, c.request = some j → j < n.nextRequest) ∨ ∃ topic, (job.license n).joins topic c
  have before : (job.prepare n).HasOnly fun _ => known := by
    intro topic record there c callback
    rw [subscriptions] at there
    exact .inl (ready.numbered topic record there c callback)
  have alone : ∀ topic c, (job.license n).joins topic c → known c ∧
      ∀ c', known c' → c'.request = c.request → c.request.isSome = true → c' = c := by
    intro topic c joins
    refine ⟨.inr ⟨topic, joins⟩, fun c' is_known same numbered => ?_⟩
    rcases Job.joins_cases joins with
      ⟨protocols, qos, rfl⟩ | ⟨asked, payload, qos, correlation, name, rfl, named, rfl, rfl⟩
    · rw [show c.request = none from ordinary] at numbered
      cases numbered
    · rcases is_known with bounded | ⟨topic', joins'⟩
      · exact absurd (bounded _ same) (Nat.lt_irrefl _)
      · exact joins'.2.2
  refine ⟨course.listed moored (ready.listed.congr config (congrArg Line.inbox line) subscriptions
    fun _ => rfl), ?_, ?_, ?_⟩
  · intro topic record there c callback j numbered
    rw [next]
    rcases course.hasOnly (fun topic c joins => (alone topic c joins).1) before topic record there c
      callback with bounded | ⟨topic', joins⟩
    · exact Nat.lt_of_lt_of_le (bounded j numbered) (job.nextRequest_le n)
    · rcases Job.joins_cases joins with
        ⟨protocols, qos, rfl⟩ | ⟨asked, payload, qos, correlation, name, rfl, named, -, rfl⟩
      · rw [show c.request = none from ordinary] at numbered
        cases numbered
      · cases numbered
        show n.nextRequest < (Job.prepare n _).nextRequest
        rw [Job.prepare_request, if_neg named]
        exact Nat.lt_succ_self _
  · refine course.distinct alone before fun topic record there => ?_
    rw [show (m.station id (job.prepare n)).node.subscriptions = n.subscriptions from
      subscriptions] at there
    exact ready.distinct topic record there
  · rw [finished', show (m.station id (job.prepare n)).node.finished = n.finished from finished]
    exact ready.open_

theorem attentive_work (attentive : m.Attentive) {job : Job}
    (ordinary : (Turn.work id job).Ordinary) : ((Turn.work id job).result m).Attentive := by
  have orderly := orderly_work attentive.orderly id job
  cases found : m.nodes.get? id with
  | none =>
    rw [work_of_none found]
    exact attentive
  | some n =>
    obtain ⟨-, -, stirred, -⟩ := attentive.orderly.working found job
    refine ⟨orderly, ?_, fun other n' found' => ?_⟩
    · rw [hub_work found]
      exact stirred.carries attentive.orderly.sound
        (fun message spoken => open_ended_of_ordinary ordinary spoken) attentive.open_ended
    · rw [get?_work found] at found'
      split at found'
      · cases found'
        have ready := ready_doing attentive found ordinary
        refine ⟨ready.listed.congr rfl rfl rfl fun _ => ?_, ready.numbered, ready.distinct, ready.open_⟩
        show ((Turn.work id job).result m).hub.broker.subscribed _ _ = _
        rw [hub_work found]
      · next apart =>
        have ready := attentive.ready other n' found'
        have elsewhere : id ≠ n'.id := fun same =>
          apart (same.trans (attentive.orderly.named other n' found'))
        refine ⟨ready.listed.congr rfl rfl rfl fun topic => ?_, ready.numbered, ready.distinct,
          ready.open_⟩
        show ((Turn.work id job).result m).hub.broker.subscribed topic n'.id = _
        rw [hub_work found]
        exact stirred.others_subscribed elsewhere topic

/-- What a frame leaves as it is, if it brings no last answer. -/
theorem finished_onFrame {frame : ServerFrame}
    (goes_on : ∀ message, frame = .deliver message → (Delivery.ofMessage message).isLast = false) :
    (n.onFrame frame).finished = n.finished := by
  cases taken : n.taken? frame with
  | none => exact (onFrame_of_not_taken taken).1
  | some d =>
    rw [onFrame_of_taken taken]
    refine (deliver_of_not_last ?_).1
    cases frame with
    | deliver message =>
      rw [taken?_deliver] at taken
      split at taken
      · cases taken
      · cases taken
        exact goes_on message rfl
    | _ => cases taken

theorem ready_onFrame {s : Station} (ready : Ready s) {frame : ServerFrame}
    (goes_on : ∀ message, frame = .deliver message → (Delivery.ofMessage message).isLast = false)
    {hub : Hub} (broker : hub.broker = s.hub.broker) :
    Ready { s with node := s.node.onFrame frame, hub := hub } := by
  obtain ⟨config, line, subscriptions, -⟩ := s.node.onFrame_keeps frame
  obtain ⟨next, -⟩ := s.node.onFrame_numbers frame
  refine ⟨ready.listed.congr config (congrArg Line.inbox line) subscriptions fun _ => ?_, ?_, ?_, ?_⟩
  · show hub.broker.subscribed _ _ = _
    rw [broker]
  · intro topic record there
    rw [show _ = s.node.nextRequest from next]
    exact ready.numbered topic record (subscriptions ▸ there)
  · intro topic record there
    exact ready.distinct topic record (subscriptions ▸ there)
  · exact (finished_onFrame goes_on).trans ready.open_

theorem attentive_hand (attentive : m.Attentive) {inbox : Nat} {hub : Hub} {client : String}
    {frame : ServerFrame} (popped : m.hub.pop? inbox = some (hub, client, frame)) :
    (m.hand (hub, client, frame)).Attentive := by
  have goes_on : ∀ message, frame = .deliver message →
      (Delivery.ofMessage message).isLast = false := by
    rintro message rfl
    refine attentive.open_ended.frames inbox message ?_
    rw [Hub.framesIn_of_pop? popped inbox, if_pos rfl]
    exact List.mem_cons_self
  refine ⟨orderly_hand attentive.orderly popped, Hub.carries_of_pop? attentive.open_ended popped,
    fun id n' found => ?_⟩
  obtain ⟨n, there, rfl⟩ := node_of_hand found
  have ready := attentive.ready id n there
  have broker := Hub.broker_of_pop? popped
  split
  · exact ready_onFrame ready goes_on broker
  · refine ⟨ready.listed.congr rfl rfl rfl fun _ => ?_, ready.numbered, ready.distinct, ready.open_⟩
    show hub.broker.subscribed _ _ = _
    rw [broker]
    rfl

theorem attentive_turn (attentive : m.Attentive) {turn : Turn} (ordinary : turn.Ordinary) :
    (turn.result m).Attentive := by
  cases turn with
  | work id job => exact attentive_work attentive ordinary
  | hand inbox =>
    rcases hand_cases m inbox with same | ⟨hub, client, frame, popped, result⟩
    · rw [same]
      exact attentive
    · rw [result]
      exact attentive_hand attentive popped
  | weather outage =>
    exact ⟨orderly_turn attentive.orderly ordinary, attentive.open_ended, fun id n found =>
      ⟨(attentive.ready id n found).listed, (attentive.ready id n found).numbered,
        (attentive.ready id n found).distinct, (attentive.ready id n found).open_⟩⟩

/-- **Every mesh that is reached by ordinary turns is attentive.** -/
theorem attentive_play {turns : List Turn} (ordinary : ∀ turn ∈ turns, turn.Ordinary)
    (attentive : m.Attentive) : (play m turns).Attentive := by
  induction turns generalizing m with
  | nil => exact attentive
  | cons turn rest ih =>
    exact ih (fun later there => ordinary later (List.mem_cons_of_mem turn there))
      (attentive_turn attentive (ordinary turn List.mem_cons_self))

/-! ## A publication -/

/-- A node that takes frames stays ready, and as it is configured and subscribed. -/
theorem ready_foldl_onFrame {frames : List ServerFrame}
    (goes_on : ∀ message, .deliver message ∈ frames → (Delivery.ofMessage message).isLast = false)
    {s : Station} (ready : Ready s) :
    Ready { s with node := frames.foldl onFrame s.node } ∧
      (frames.foldl onFrame s.node).config = s.node.config ∧
      (frames.foldl onFrame s.node).subscriptions = s.node.subscriptions := by
  induction frames generalizing s with
  | nil => exact ⟨ready, rfl, rfl⟩
  | cons frame rest ih =>
    obtain ⟨config, -, subscriptions, -⟩ := s.node.onFrame_keeps frame
    have first : Ready { s with node := s.node.onFrame frame, hub := s.hub } :=
      ready_onFrame ready (fun message is => goes_on message (is ▸ List.mem_cons_self)) rfl
    obtain ⟨last, config', subscriptions'⟩ := ih (s := { s with node := s.node.onFrame frame })
      (fun message there => goes_on message (List.mem_cons_of_mem frame there)) first
    exact ⟨last, config'.trans config, subscriptions'.trans subscriptions⟩

/-- **A publication joins the queue of a subscriber of its topic**, once. -/
theorem queue_after_post (attentive : m.Attentive) {sender receiver : String} {speaker n : Node}
    {record : Subscription Callback} {message : Message} {inbox : Nat}
    (speaking : m.nodes.get? sender = some speaker) (up : speaker.line.isConnected m.hub = true)
    (found : m.nodes.get? receiver = some n) (attached : n.line.inbox = some inbox)
    (subscribed : n.subscriptions.get? message.topic = some record)
    (at_broker : record.endpoint = .broker) (valid : Filter.isValid message.topic = true) :
    let posted := (Turn.work sender (.post message)).result m
    posted.nodes.get? receiver = some n ∧
      posted.hub.framesIn inbox = m.hub.framesIn inbox ++
        [.deliver { message.stamp m.hub.now with retain := false }] ∧
      posted.hub.ownerOf? inbox = m.hub.ownerOf? inbox := by
  intro posted
  have orderly := attentive.orderly
  have named := orderly.named receiver n found
  have moored := orderly.moored receiver n found
  have reads : m.hub.inboxOf receiver = some inbox := by
    rw [← named]
    exact moored.inbox.trans attached
  have listed : m.hub.broker.subscribed message.topic receiver = true := by
    rw [← named]
    exact (attentive.ready receiver n found).listed (Option.isSome_iff_exists.2 ⟨inbox, attached⟩)
      message.topic record subscribed at_broker valid
  have owns : m.hub.broker.owns message.topic receiver = true :=
    orderly.sound.owns_of_subscribed listed
  have run : m.doing sender speaker (.post message) =
      { m.station sender speaker with hub := m.hub.publish message } :=
    after_ok (post_connected (s := m.station sender speaker) (orderly.steady sender) up message)
  have hub : posted.hub = m.hub.publish message := by
    show ((Turn.work sender (.post message)).result m).hub = _
    rw [hub_work speaking, run]
  refine ⟨?_, ?_, ?_⟩
  · show ((Turn.work sender (.post message)).result m).nodes.get? receiver = some n
    rw [get?_work speaking, run]
    split
    · next same =>
      subst same
      exact speaking.symm.trans found
    · exact found
  · rw [hub, Hub.framesIn_publish orderly.sound, orderly.sound.readerOf?_eq_some_iff.2 reads,
      Option.filter_some, if_pos owns]
    rfl
  · rw [hub, Hub.ownerOf?_publish]

/-- **A publication reaches every callback of its topic, and nobody else.**  Once the queue
of a subscriber is taken, it has called each callback that is registered for the topic,
once and in order of registration, and has called nobody else; all else is as if there
had been no publication.  That holds whether the message is kept or not. -/
theorem relayed (configs : List NodeConfig) (now : Int64) (firstPort : UInt16) (turns : List Turn)
    (ordinary : ∀ turn ∈ turns, turn.Ordinary) {sender receiver : String} {speaker n : Node}
    {record : Subscription Callback} {message : Message} :
    let m := play (new configs now firstPort) turns
    let posted := (Turn.work sender (.post message)).result m
    m.nodes.get? sender = some speaker → speaker.line.isConnected m.hub = true →
    m.nodes.get? receiver = some n → n.line.isConnected m.hub = true →
    n.subscriptions.get? message.topic = some record → record.endpoint = .broker →
    Filter.isValid message.topic = true →
    n.config.discovery.isDiscoveryTopic message.topic = false →
    ∃ inbox quiet heard d,
      n.line.inbox = some inbox ∧ record.callbacks.Nodup ∧
      (m.handAll inbox).nodes.get? receiver = some quiet ∧
      (posted.handAll inbox).nodes.get? receiver = some heard ∧
      (d.topic = message.topic ∧ d.payload = message.payload ∧ d.protocol = .broker) ∧
      heard.invoked = quiet.invoked ++ record.callbacks.map fun c => (c.name, d) := by
  intro m posted speaking up found up' subscribed at_broker valid plain
  have attentive : m.Attentive :=
    attentive_play ordinary (attentive_new configs now firstPort)
  obtain ⟨inbox, attached, reads⟩ := attentive.orderly.inbox_of_connected found up'
  have owner := attentive.orderly.sound.ownerOf?_of_inboxOf reads
  obtain ⟨found', queue, owner'⟩ := queue_after_post attentive speaking up found attached subscribed
    at_broker valid
  have ready := attentive.ready receiver n found
  obtain ⟨ready', config, subscriptions⟩ := ready_foldl_onFrame
    (fun message there => attentive.open_ended.frames inbox message there) ready
  let quiet := (m.hub.framesIn inbox).foldl onFrame n
  have config : quiet.config = n.config := config
  have subscriptions : quiet.subscriptions = n.subscriptions := subscriptions
  obtain ⟨nodup, apart⟩ := ready.distinct message.topic record subscribed
  let d := Delivery.ofMessage message
  have topic : d.topic = message.topic := Delivery.topic_ofMessage message
  have taken : quiet.taken? (.deliver { message.stamp m.hub.now with retain := false }) = some d := by
    rw [taken?_deliver, Delivery.ofMessage_relayed, config]
    show (if n.config.discovery.isDiscoveryTopic (message.stamp m.hub.now).topic = true then none
      else some d) = some d
    rw [Hub.stamp_topic, plain, if_neg Bool.false_ne_true]
  have callbacks : quiet.subscriptions.callbacks d.topic = record.callbacks := by
    unfold Subscriptions.callbacks
    rw [subscriptions, topic, subscribed]
  have protocol : d.payload = message.payload ∧ d.protocol = .broker := by
    show (Delivery.ofMessage message).payload = _ ∧ (Delivery.ofMessage message).protocol = _
    unfold Delivery.ofMessage
    cases message.reply <;> exact ⟨rfl, rfl⟩
  refine ⟨inbox, quiet, quiet.deliver d, d, attached, nodup, get?_handAll owner found, ?_,
    ⟨topic, protocol⟩, ?_⟩
  · rw [get?_handAll (owner'.trans owner) found', queue, List.foldl_append]
    exact congrArg some (onFrame_of_taken taken)
  · rw [deliver_eq_invokeAll, callbacks]
    refine invoked_invokeAll nodup apart fun c _ request _ ended => ?_
    rw [show quiet.finished = [] from ready'.open_] at ended
    cases ended

/-- Two nodes join; the second one subscribes a topic and everything, loses its line,
rejoins, and registers another callback for the topic. -/
def rejoining : List Turn :=
  [.work "a" (.call .connect), .work "b" (.call .connect),
    .work "b" (.call (.subscribe "t" ⟨"c", none⟩ (.only .broker) .atMostOnce)),
    .work "b" (.call (.subscribe "#" ⟨"all", none⟩ (.only .broker) .atMostOnce)),
    .work "b" (.call .abort), .work "b" (.call .connect),
    .work "b" (.call (.subscribe "t" ⟨"e", none⟩ (.only .broker) .atMostOnce))]

/-- A publication calls the two callbacks of its topic, and not the one of the filter
that matches it too. -/
theorem relayed_after_rejoining :
    let m := play (new pair 0 7000) rejoining
    let posted := (Turn.work "a" (.post (.plain "t" [7] .atMostOnce false))).result m
    ∃ inbox quiet heard d,
      (m.handAll inbox).nodes.get? "b" = some quiet ∧
      (posted.handAll inbox).nodes.get? "b" = some heard ∧
      d.payload = [7] ∧ heard.invoked = quiet.invoked ++ [("c", d), ("e", d)] := by
  intro m posted
  have ordinary : ∀ turn ∈ rejoining, turn.Ordinary := by
    simp [rejoining, Turn.Ordinary]
  obtain ⟨speaker, speaking⟩ : ∃ n, m.nodes.get? "a" = some n :=
    Option.isSome_iff_exists.1 (by decide +kernel)
  obtain ⟨n, found⟩ : ∃ n, m.nodes.get? "b" = some n :=
    Option.isSome_iff_exists.1 (by decide +kernel)
  have up : speaker.line.isConnected m.hub = true := by
    have : (m.nodes.get? "a").map (fun n => n.line.isConnected m.hub) = some true := by
      decide +kernel
    rw [speaking] at this
    exact Option.some.inj this
  have up' : n.line.isConnected m.hub = true := by
    have : (m.nodes.get? "b").map (fun n => n.line.isConnected m.hub) = some true := by
      decide +kernel
    rw [found] at this
    exact Option.some.inj this
  have subscribed : n.subscriptions.get? "t" =
      some ⟨[⟨"c", none⟩, ⟨"e", none⟩], .broker, .atMostOnce, true⟩ := by
    have : (m.nodes.get? "b").map (fun n => n.subscriptions.get? "t") =
        some (some ⟨[⟨"c", none⟩, ⟨"e", none⟩], .broker, .atMostOnce, true⟩) := by
      decide +kernel
    rw [found] at this
    exact Option.some.inj this
  have plain : n.config.discovery.isDiscoveryTopic "t" = false := by
    have : (m.nodes.get? "b").map (fun n => n.config.discovery.isDiscoveryTopic "t") =
        some false := by
      decide +kernel
    rw [found] at this
    exact Option.some.inj this
  obtain ⟨inbox, quiet, heard, d, -, -, before, after, ⟨-, payload, -⟩, called⟩ :=
    @relayed pair 0 7000 rejoining ordinary "a" "b" speaker n _ (.plain "t" [7] .atMostOnce false)
      speaking up found up' subscribed rfl (by decide +kernel) plain
  exact ⟨inbox, quiet, heard, d, before, after, payload, called⟩

end Mesh

end TopicMesh
