import TopicMesh.Proofs.Mesh.Answering

/-!
# A request is answered

A frame that the asker takes out of its inbox moves one answer from the queue to the log
of the callback (`stage_frame`); frames out of other inboxes bring none.  With the jobs
of all nodes, so every turn keeps an exchange under way (`running_turn`), which the
request of a connected asker puts it (`running_ask`).

Hence the callback of a request **is called with the answers of its own series**, each
once and in order, and with nothing else, however the answers to other requests come
between them (`answered_in_order`).
-/

namespace TopicMesh.Mesh.Exchange

open Node Act

variable {x : Exchange} {m : Mesh} {inbox : Nat} {s s' : Station}
  {series : List (Bytes × Bool)} {frame : ServerFrame} {hub : Hub}

/-! ## Frames at the asker -/

/-- A frame that brings no answer changes nothing. -/
theorem follows_onFrame (posed : x.Posed inbox s) (silent : frame.deliveryOn? x.answers = none)
    (broker : hub.broker = s.hub.broker) :
    x.Follows inbox s { s with node := s.node.onFrame frame, hub := hub } := by
  obtain ⟨config, line, subscriptions, -⟩ := s.node.onFrame_keeps frame
  obtain ⟨log, finished, chores⟩ := onFrame_elsewhere silent posed.sole
  refine follows_of_keeps posed config line subscriptions ?_ log finished chores ?_
  · exact Nat.le_of_eq (s.node.onFrame_numbers frame).1.symm
  · show hub.broker.subscribed _ _ = _
    rw [broker]

/-- The callbacks of the topic for answers. -/
theorem callbacks_of_held (held : s.Held x.answers x.record) :
    s.node.subscriptions.callbacks x.answers = [⟨x.callback, some x.number⟩] := by
  unfold Subscriptions.callbacks
  rw [held.1]
  rfl

theorem callbacks_of_rid (rid : s.Rid x.answers) : s.node.subscriptions.callbacks x.answers = [] := by
  unfold Subscriptions.callbacks
  rw [rid.1]

/-- What a frame with an answer does at the asker. -/
theorem onFrame_of_brings {d : Delivery} (plain : x.Plain s.node.config.discovery)
    (brings : frame.deliveryOn? x.answers = some d) :
    d.topic = x.answers ∧ s.node.onFrame frame = s.node.deliver d := by
  obtain ⟨message, rfl, topic, rfl⟩ := ServerFrame.deliveryOn?_eq_some brings
  refine ⟨(Delivery.topic_ofMessage message).trans topic, onFrame_of_taken ?_⟩
  rw [taken?_deliver, topic, plain.not_discovery, if_neg Bool.false_ne_true]

/-- The first answer that waits is taken: the callback is called with it, and the last one
ends the exchange. -/
theorem stage_taken {d : Delivery} {rest junk : List Delivery} (proper : Proper series)
    (topic : d.topic = x.answers) (open_ : x.Open s)
    (broker : hub.broker = s.hub.broker) (due : hub.due inbox x.answers = rest ++ junk)
    (log : s.node.log x.answers ++ (d :: rest).map (fun d => (x.callback, d)) = x.calls series)
    (clean : isOver series = false → junk = []) :
    x.Stage series inbox { s with node := s.node.deliver d, hub := hub } := by
  obtain ⟨-, last⟩ := calls_split proper log.symm
  have callbacks : s.node.subscriptions.callbacks d.topic = [⟨x.callback, some x.number⟩] := by
    rw [topic]
    exact callbacks_of_held open_.held
  rw [deliver_answer callbacks open_.open_]
  have listed : hub.broker.subscribed x.answers s.node.id =
      s.hub.broker.subscribed x.answers s.node.id := by rw [broker]
  have held : ∀ node : Node, node.subscriptions = s.node.subscriptions → node.id = s.node.id →
      ({ s with node := node, hub := hub } : Station).Held x.answers x.record :=
    fun node subscriptions id =>
      (Station.held_congr subscriptions id listed x.record).2 open_.held
  cases ends : d.isLast with
  | false =>
    rw [ends] at last
    refine .waiting rest junk ⟨held _ rfl rfl, ?_, ?_⟩ due ?_ clean fun ended empty => ?_
    · exact open_.open_
    · exact open_.unmarked
    · rw [log_of_called topic rfl, List.append_assoc]
      exact log
    · rw [ended, empty] at last
      cases last
  | true =>
    rw [ends] at last
    obtain ⟨ended, empty⟩ := Bool.and_eq_true_iff.1 last.symm
    have empty : rest = [] := List.map_eq_nil_iff.1 (List.isEmpty_iff.1 empty)
    subst empty
    refine .settled ⟨?_, .inr ⟨?_, held _ rfl rfl⟩⟩ ended ?_
    · exact List.mem_cons_self
    · show x.answers ∈ s.node.chores ++ [d.topic]
      rw [topic]
      exact List.mem_append_right _ (List.mem_singleton.2 rfl)
    · rw [log_of_called topic rfl]
      exact log

theorem posed_onFrame (posed : x.Posed inbox s) (frame : ServerFrame) (hub : Hub) :
    x.Posed inbox { s with node := s.node.onFrame frame, hub := hub } := by
  obtain ⟨-, line, subscriptions, -⟩ := s.node.onFrame_keeps frame
  refine ⟨?_, ?_, fun topic record known => posed.sole topic record (subscriptions ▸ known)⟩
  · exact (congrArg Line.inbox line).trans posed.attached
  · exact (s.node.onFrame_numbers frame).1.symm ▸ posed.passed

/-- **A frame of the asker's inbox** moves its answer from the queue to the log, or calls
nobody. -/
theorem stage_frame (proper : Proper series) (plain : x.Plain s.node.config.discovery)
    (posed : x.Posed inbox s) (stage : x.Stage series inbox s)
    (broker : hub.broker = s.hub.broker)
    (due : s.hub.due inbox x.answers =
      (frame.deliveryOn? x.answers).toList ++ hub.due inbox x.answers) :
    x.Stage series inbox { s with node := s.node.onFrame frame, hub := hub } := by
  cases brings : frame.deliveryOn? x.answers with
  | none =>
    rw [brings] at due
    exact stage_stays stage (follows_onFrame posed brings broker) due.symm
  | some d =>
    rw [brings] at due
    obtain ⟨topic, is⟩ := onFrame_of_brings plain brings
    rw [is]
    cases stage with
    | waiting rest junk open_ queue log clean last =>
      -- the first delivery is an answer of the series, since nothing else waits before one
      have parts : d :: hub.due inbox x.answers = rest ++ junk := due.symm.trans queue
      cases rest with
      | nil =>
        cases ended : isOver series with
        | true => exact absurd rfl (last ended)
        | false =>
          rw [clean ended] at parts
          cases parts
      | cons first rest =>
        obtain ⟨rfl, others⟩ := List.cons.inj parts
        exact stage_taken proper topic open_ broker others log clean
    | settled shut ended log =>
      have callbacks : s.node.subscriptions.callbacks d.topic = [] ∨
          s.node.subscriptions.callbacks d.topic = [⟨x.callback, some x.number⟩] := by
        rw [topic]
        exact shut.dropped.imp callbacks_of_rid fun both => callbacks_of_held both.2
      rw [deliver_after_last callbacks shut.finished]
      have follows : x.Follows inbox s { s with hub := hub } :=
        follows_of_keeps posed rfl rfl rfl (Nat.le_refl _) rfl .rfl .rfl (by rw [broker])
      exact .settled (follows.shut shut) ended log

/-! ## Turns -/

/-- A frame that the asker takes brings what was first in the queue of answers: it comes
from there, or from an inbox where no answers are. -/
theorem due_of_taken {popped : Nat} (elsewhere : x.NoneElsewhere inbox m)
    (pops : m.hub.pop? popped = some (hub, x.asker, frame)) :
    m.hub.due inbox x.answers =
      (frame.deliveryOn? x.answers).toList ++ hub.due inbox x.answers := by
  have was := Hub.due_of_pop? pops inbox x.answers
  by_cases here : popped = inbox
  · rw [if_pos here] at was
    exact was
  · rw [if_neg here] at was
    have nothing := elsewhere popped here (Hub.ownerOf?_of_pop? pops popped).2
    rw [Hub.due_of_pop? pops popped, if_pos rfl] at nothing
    rw [(List.append_eq_nil_iff.1 nothing).1]
    exact was

/-- The asker after a frame was handed over, to it or to another node. -/
theorem asker_hand (running : x.Running series m) {popped : Nat} {client : String}
    (pops : m.hub.pop? popped = some (hub, client, frame)) {n : Node}
    (asking : m.nodes.get? x.asker = some n) (posed : x.Posed inbox (m.station x.asker n))
    (elsewhere : x.NoneElsewhere inbox m) (stage : x.Stage series inbox (m.station x.asker n)) :
    ∃ n', (m.hand (hub, client, frame)).nodes.get? x.asker = some n' ∧
      x.Posed inbox ((m.hand (hub, client, frame)).station x.asker n') ∧
      x.Stage series inbox ((m.hand (hub, client, frame)).station x.asker n') := by
  have broker : hub.broker = m.hub.broker := Hub.broker_of_pop? pops
  obtain ⟨-, owner⟩ := Hub.ownerOf?_of_pop? pops popped
  rw [get?_hand]
  by_cases same : client = x.asker
  · subst same
    have queue := due_of_taken elsewhere pops
    have station : (m.hand (hub, x.asker, frame)).station x.asker (n.onFrame frame) =
        { m.station x.asker n with node := n.onFrame frame, hub := hub } := rfl
    have taken := stage_frame running.proper (running.plain _ n asking) posed stage broker queue
    refine ⟨n.onFrame frame, ?_, ?_, ?_⟩
    · rw [if_pos rfl, asking]
      rfl
    · rw [station]
      exact posed_onFrame posed frame hub
    · rw [station]
      exact taken
  · have apart : popped ≠ inbox := by
      rintro rfl
      exact same (Option.some.inj (owner.symm.trans (posed.reads running.orderly asking).2))
    have follows : x.Follows inbox (m.station x.asker n)
        ((m.hand (hub, client, frame)).station x.asker n) :=
      follows_of_keeps posed rfl rfl rfl (Nat.le_refl _) rfl .rfl .rfl
        (by show hub.broker.subscribed _ _ = _; rw [broker]; rfl)
    have was := Hub.due_of_pop? pops inbox x.answers
    rw [if_neg apart] at was
    exact ⟨n, (if_neg same).trans asking, follows.posed, stage_stays stage follows was.symm⟩

theorem going_hand (going : x.Going series m) {popped : Nat} {client : String}
    (pops : m.hub.pop? popped = some (hub, client, frame)) :
    x.Going series (m.hand (hub, client, frame)) := by
  obtain ⟨marks, kept, r, answering, attached, number⟩ := going
  refine ⟨bears_hand marks pops, ?_, ?_⟩
  · unfold Hub.kept at kept ⊢
    rw [show (m.hand (hub, client, frame)).hub.broker = m.hub.broker from Hub.broker_of_pop? pops]
    exact kept
  · rw [get?_hand, answering]
    split
    · refine ⟨r.onFrame frame, rfl, ?_, ?_⟩
      · rw [(r.onFrame_keeps frame).2.1]
        exact attached
      · rw [(r.onFrame_numbers frame).2]
        exact number
    · exact ⟨r, rfl, attached, number⟩

/-- **A frame that is handed over** keeps the exchange under way. -/
theorem running_hand (running : x.Running series m) {popped : Nat} {client : String}
    (pops : m.hub.pop? popped = some (hub, client, frame)) :
    x.Running series (m.hand (hub, client, frame)) := by
  obtain ⟨n, inbox, asking, posed, elsewhere, stage⟩ := running.asker
  obtain ⟨n', asking', posed', stage'⟩ := asker_hand running pops asking posed elsewhere stage
  have plain := plain_turn running.orderly running.plain (.hand popped)
  rw [hand_of_pop? pops] at plain
  refine ⟨orderly_hand running.orderly pops, plain, running.proper,
    ⟨n', inbox, asking', posed', fun other apart owned => ?_, stage'⟩,
    fun going => going_hand (running.going going) pops⟩
  have was := elsewhere other apart (((Hub.ownerOf?_of_pop? pops other).1).symm.trans owned)
  rw [Hub.due_of_pop? pops other] at was
  exact (List.append_eq_nil_iff.1 was).2

theorem running_turn (running : x.Running series m) {turn : Turn} (own : x.Own turn)
    (remains : x.Remains turn)
    (leaves : isOver series = false → x.Quiet m turn ∧ x.Answered m turn) :
    x.Running (extend x.answers series turn) (turn.result m) := by
  cases turn with
  | work id job => exact running_work running own remains leaves
  | hand inbox =>
    rw [extend_of_none rfl]
    rcases hand_cases m inbox with same | ⟨hub, client, frame, popped, result⟩
    · rw [same]
      exact running
    · rw [result]
      exact running_hand running popped
  | weather outage =>
    rw [extend_of_none rfl]
    obtain ⟨n, inbox, asking, posed, elsewhere, stage⟩ := running.asker
    have follows : x.Follows inbox (m.station x.asker n)
        (((Turn.weather outage).result m).station x.asker n) :=
      follows_of_keeps posed rfl rfl rfl (Nat.le_refl _) rfl .rfl .rfl rfl
    exact ⟨orderly_turn running.orderly own, running.plain, running.proper,
      ⟨n, inbox, asking, follows.posed, elsewhere, stage_stays stage follows rfl⟩, fun going =>
        ⟨(running.going going).marks.weather outage, (running.going going).kept,
          (running.going going).answerer⟩⟩

/-- **An exchange stays under way**, whatever turns leave it alone. -/
theorem running_play {turns : List Turn} (running : x.Running series m)
    (later : x.After m series turns) :
    x.Running (turns.foldl (extend x.answers) series) (play m turns) := by
  induction turns generalizing m series with
  | nil => exact running
  | cons turn rest ih =>
    obtain ⟨⟨own, remains, leaves⟩, later⟩ := later
    exact ih (running_turn running own remains leaves) later

theorem running_hands (running : x.Running series m) (inbox count : Nat) :
    x.Running series (play m (List.replicate count (.hand inbox))) := by
  induction count generalizing m with
  | zero => exact running
  | succ count ih =>
    have next : x.Running (extend x.answers series (.hand inbox)) ((Turn.hand inbox).result m) :=
      running_turn running trivial trivial fun _ => ⟨trivial, trivial⟩
    rw [extend_of_none rfl] at next
    exact ih next

/-! ## The request -/

section Asking

variable {n r : Node}

/-- An asker that has asked. -/
def asked (x : Exchange) (s : Station) : Station :=
  { s with
    node := s.node.counted.withRecord x.answers x.record
    hub := (s.hub.subscribe x.answers x.asker x.qos).publish
      (question x.topic x.payload x.qos x.answers x.correlation) }

/-- What a request of a connected asker does. -/
theorem doing_ask (orderly : m.Orderly) (named : x.topic ≠ "")
    (asking : m.nodes.get? x.asker = some n) (number : n.nextRequest = x.number)
    (up : n.line.isConnected m.hub = true) (free : n.subscriptions.get? x.answers = none) :
    m.doing x.asker n x.job = x.asked (m.station x.asker n) := by
  have answers : replyTopic x.topic n.id n.nextRequest = x.answers := by
    rw [orderly.named x.asker n asking, number]
    rfl
  have client : n.line.client = x.asker :=
    (orderly.moored x.asker n asking).client.trans (orderly.named x.asker n asking)
  have run := request_free (s := m.station x.asker n) (orderly.steady x.asker) up named x.payload
    x.qos x.correlation x.callback
  dsimp only at run
  rw [show (m.station x.asker n).node = n from rfl, answers, number, client] at run
  exact after_ok (run free)

/-- What the asker may publish in the course of its request. -/
theorem speech_ask (orderly : m.Orderly) (asking : m.nodes.get? x.asker = some n)
    (number : n.nextRequest = x.number) (plain : x.Plain n.config.discovery) {message : Message}
    (spoken : Station.Speech (x.job.license n) n message) :
    message = question x.topic x.payload x.qos x.answers x.correlation ∨
      message.topic ≠ x.answers ∧ (Delivery.ofMessage message).replyTopic ≠ some x.answers := by
  rcases spoken with ⟨topic, silent⟩ | ⟨-, rfl⟩
  · refine .inr ⟨topic ▸ plain.not_own, ?_⟩
    unfold Delivery.ofMessage
    rw [silent]
    exact nofun
  · rw [orderly.named x.asker n asking, number]
    exact .inl rfl

theorem kept_of_unheard (sound : m.hub.Sound) (unheard : x.Unheard m) :
    m.hub.kept x.answers = none := by
  unfold Hub.kept
  cases known : m.hub.broker.retained.byTopic.get? x.answers with
  | none => rfl
  | some message =>
    have other := (unheard.unborne.carries.kept x.answers message known).1
    rw [Delivery.topic_ofMessage] at other
    exact absurd (sound.topics x.answers message known) other

theorem due_of_unheard (unheard : x.Unheard m) (inbox : Nat) : m.hub.due inbox x.answers = [] :=
  List.filterMap_eq_nil_iff.2 fun _ waits => unheard.silent waits

/-- After the request no answer waits anywhere. -/
theorem due_ask (fresh : x.Fresh m) (asking : m.nodes.get? x.asker = some n)
    (number : n.nextRequest = x.number) {inbox : Nat}
    (owner : (x.ask.result m).hub.ownerOf? inbox = some x.asker) :
    (x.ask.result m).hub.due inbox x.answers = [] := by
  have orderly := fresh.orderly
  have unheard := fresh.unheard n asking (Nat.le_of_eq number)
  obtain ⟨-, -, stirred, -⟩ := orderly.working asking x.job
  rw [ask, hub_work asking] at owner ⊢
  obtain ⟨-, grown⟩ := stirred.queue orderly.sound False.elim owner
  obtain ⟨more, after, silent⟩ := Hub.due_of_grown grown x.answers
  rw [after, due_of_unheard unheard, silent (.inr ⟨fun message spoken => ?_,
    kept_of_unheard orderly.sound unheard⟩)]
  · rfl
  · rcases speech_ask orderly asking number (fresh.plain _ n asking) spoken with rfl | ⟨other, -⟩
    · exact (replyTopic_ne x.topic x.asker x.number).symm
    · exact other

theorem sole_withRecord (sole : x.Sole n) : x.Sole (n.counted.withRecord x.answers x.record) := by
  intro topic record known c callback numbered
  rw [Node.get?_withRecord] at known
  split at known
  · next same => exact same.symm
  · exact sole topic record known c callback numbered

theorem posed_asked (attached : s.node.line.inbox = some inbox)
    (number : s.node.nextRequest = x.number) (sole : x.Sole s.node) :
    x.Posed inbox (x.asked s) := by
  refine ⟨attached, ?_, sole_withRecord sole⟩
  show x.number < s.node.nextRequest + 1
  omega

/-- The callback of a request that has just been made is not silent. -/
theorem open_asked (named : s.node.id = x.asker) (valid : Filter.isValid x.answers = true)
    (unasked : x.Unasked s.node) : x.Open (x.asked s) := by
  refine ⟨⟨?_, ?_⟩, unasked.open_, unasked.unmarked⟩
  · exact (Node.get?_withRecord ..).trans (if_pos rfl)
  · rw [show (x.asked s).node.id = x.asker from named]
    show (s.hub.subscribe x.answers x.asker x.qos).broker.subscribed x.answers x.asker = true
    rw [Hub.broker_subscribe, Broker.subscribed_subscribe, decide_eq_true ⟨valid, rfl, rfl⟩,
      Bool.or_true]

theorem log_of_unheard (unheard : x.Unheard m) (asking : m.nodes.get? x.asker = some n) :
    n.log x.answers = [] := by
  refine List.filter_eq_nil_iff.2 fun e called => ?_
  simpa using (unheard.unborne.heard x.asker n asking e called).1

/-- Whoever hears of the request knows what to answer with. -/
theorem going_ask (fresh : x.Fresh m) (asking : m.nodes.get? x.asker = some n)
    (number : n.nextRequest = x.number) (answering : m.nodes.get? x.answerer = some r)
    (attached : r.line.inbox.isSome = true) : x.Going [] (x.ask.result m) := by
  have orderly := fresh.orderly
  have unheard := fresh.unheard n asking (Nat.le_of_eq number)
  obtain ⟨-, course, stirred, -⟩ := orderly.working asking x.job
  have spoken : ∀ message, Station.Speech (x.job.license n) n message → _ :=
    fun message spoken => speech_ask orderly asking number (fresh.plain _ n asking) spoken
  have silent : (r.replySequences.get? x.answers).getD 0 = .ofNat 0 := by
    rw [unheard.unanswered r answering]
    rfl
  rw [ask]
  refine ⟨bears_work orderly (unheard.unborne.mono fun d both same => absurd same both.2) asking
    fun message spoke wants => ?_, ?_, ?_⟩
  · rcases spoken message spoke with rfl | ⟨-, other⟩
    · exact ⟨rfl, rfl⟩
    · exact absurd wants other
  · rw [hub_work asking]
    refine (stirred.kept fun message spoke same => ?_).trans (kept_of_unheard orderly.sound unheard)
    rcases spoken message spoke with rfl | ⟨other, -⟩
    · rfl
    · exact absurd same other
  · rw [get?_work asking]
    split
    · next same =>
      cases answering.symm.trans (same ▸ asking)
      obtain ⟨inbox, sequences⟩ := course.settled not_false
      obtain ⟨-, line, -⟩ := x.job.prepare_keeps n
      have no_answer : (Turn.work x.asker x.job).answer? x.answers = none := rfl
      have other := replyTopic_ne_of_answer? no_answer
      refine ⟨_, rfl, ?_, ?_⟩
      · rw [inbox]
        exact (congrArg (fun l => l.inbox.isSome) line).trans attached
      · rw [sequences]
        exact (congrArg (Option.getD · 0) (Job.replySequences_prepare other)).trans silent
    · exact ⟨r, answering, attached, silent⟩

end Asking

/-- **A request of a connected asker** puts the exchange under way. -/
theorem running_ask (fresh : x.Fresh m) (named : x.topic ≠ "")
    (valid : Filter.isValid x.answers = true) {n r : Node}
    (asking : m.nodes.get? x.asker = some n) (number : n.nextRequest = x.number)
    (up : n.line.isConnected m.hub = true) (answering : m.nodes.get? x.answerer = some r)
    (up' : r.line.isConnected m.hub = true) : x.Running [] (x.ask.result m) := by
  have orderly := fresh.orderly
  have plain := fresh.plain x.asker n asking
  have unasked := fresh.unasked n asking (Nat.le_of_eq number)
  have unheard := fresh.unheard n asking (Nat.le_of_eq number)
  have run := doing_ask orderly named asking number up unasked.free
  have orderly' := orderly_work orderly x.asker x.job
  obtain ⟨inbox, attached, -⟩ := orderly.inbox_of_connected asking up
  let n' := (x.asked (m.station x.asker n)).node
  have asking' : (x.ask.result m).nodes.get? x.asker = some n' := by
    rw [ask, get?_work asking, if_pos rfl, run]
  have station : (x.ask.result m).station x.asker n' = x.asked (m.station x.asker n) := by
    have station := orderly.station_work asking x.job
    rw [run] at station
    exact station
  have posed : x.Posed inbox (x.asked (m.station x.asker n)) :=
    posed_asked attached number unasked.sole
  have open_ := open_asked (s := m.station x.asker n) (orderly.named x.asker n asking) valid unasked
  have log : n.log x.answers = [] := log_of_unheard unheard asking
  obtain ⟨_, attached', -⟩ := orderly.inbox_of_connected answering up'
  refine ⟨orderly', plain_turn orderly fresh.plain _, proper_nil,
    ⟨n', inbox, asking', ?_, fun other _ owner => due_ask fresh asking number owner, ?_⟩,
    fun _ => going_ask fresh asking number answering (Option.isSome_iff_exists.2 ⟨_, attached'⟩)⟩
  · rw [station]
    exact posed
  · have owner := (Posed.reads orderly' asking' (station ▸ posed)).2
    have due := due_ask fresh asking number owner
    rw [station]
    refine .waiting [] [] open_ ?_ ?_ (fun _ => rfl) nofun
    · rw [← station]
      exact due
    · exact (List.append_nil _).trans log

/-! ## The whole exchange -/

/-- What the callback has been called with is the beginning of the series. -/
theorem log_of_stage (stage : x.Stage series inbox s) :
    s.node.log x.answers <+: x.calls series ∧
      (s.hub.due inbox x.answers = [] →
        s.node.log x.answers = x.calls series ∧ (isOver series = true → x.Shut s)) := by
  cases stage with
  | settled shut ended log => exact ⟨log ▸ List.prefix_refl _, fun _ => ⟨log, fun _ => shut⟩⟩
  | waiting rest junk open_ queue log clean last =>
    refine ⟨⟨_, log⟩, fun nothing => ?_⟩
    rw [queue] at nothing
    obtain ⟨rfl, -⟩ := List.append_eq_nil_iff.1 nothing
    exact ⟨(List.append_nil _).symm.trans log, fun ended => absurd rfl (last ended)⟩

/-- **A request is answered.**  Whatever else happens in a mesh, and however many other
exchanges are under way in it, the callback of a request is called with the answers of
its own series, in order, numbered from 0, with the request's correlation; only the last
call says so.  All answers given have come once the asker's inbox is taken.  After the last one
nothing else reaches the callback, whoever publishes on the topic, and once the chores are
done the topic is subscribed neither at the asker nor at the broker. -/
theorem answered_in_order (x : Exchange) (configs : List NodeConfig) (now : Int64) (firstPort : UInt16)
    (earlier later : List Turn) (named : x.topic ≠ "") (valid : Filter.isValid x.answers = true)
    (plain : ∀ c ∈ configs, x.Plain c.discovery)
    (before : x.Before (new configs now firstPort) earlier) {n r : Node} :
    let m₀ := play (new configs now firstPort) earlier
    m₀.nodes.get? x.asker = some n → n.nextRequest = x.number →
    n.line.isConnected m₀.hub = true →
    m₀.nodes.get? x.answerer = some r → r.line.isConnected m₀.hub = true →
    x.After (x.ask.result m₀) [] later →
    let m := play (x.ask.result m₀) later
    let series := x.series later
    ∃ asker inbox heard,
      m.nodes.get? x.asker = some asker ∧ asker.line.inbox = some inbox ∧ x.Sole asker ∧
      asker.log x.answers <+: x.calls series ∧
      (m.handAll inbox).nodes.get? x.asker = some heard ∧
      heard.log x.answers = x.calls series ∧
      (∀ e ∈ (x.calls series).dropLast, e.2.isLast = false) ∧
      (series.length ≤ UInt32.size →
        (x.calls series).map (fun e => e.2.sequence.toNat) = List.range series.length) ∧
      (isOver series = true → ∃ done,
        ((m.handAll inbox).doChores x.asker).nodes.get? x.asker = some done ∧
        done.subscriptions.get? x.answers = none ∧
        ((m.handAll inbox).doChores x.asker).hub.broker.subscribed x.answers x.asker = false) := by
  intro m₀ asking number up answering up' after m series
  have fresh : x.Fresh m₀ := fresh_play (fresh_new now firstPort plain) before
  have running : x.Running series m :=
    running_play (running_ask fresh named valid asking number up answering up') after
  obtain ⟨asker, inbox, found, posed, -, stage⟩ := running.asker
  have attached : asker.line.inbox = some inbox := posed.attached
  -- the asker takes its queue
  have taken : x.Running series (m.handAll inbox) := running_hands running inbox _
  obtain ⟨heard, inbox', found', posed', -, stage'⟩ := taken.asker
  have same : inbox' = inbox := by
    have is := get?_handAll (posed.reads running.orderly found).2 found
    have attached' : heard.line.inbox = some inbox' := posed'.attached
    cases found'.symm.trans is
    rw [line_foldl_onFrame, attached] at attached'
    exact (Option.some.inj attached').symm
  subst same
  have nothing : (m.handAll inbox').hub.due inbox' x.answers = [] := by
    unfold Hub.due
    rw [framesIn_handAll]
    rfl
  obtain ⟨log, shut⟩ := (log_of_stage stage').2 nothing
  refine ⟨asker, inbox', heard, found, attached, posed.sole, (log_of_stage stage).1, found', log,
    fun e there => last_calls running.proper there, sequences_calls, fun ended => ?_⟩
  -- the chores
  have orderly := taken.orderly
  have rid := rid_of_chores orderly found' (taken.plain x.asker heard found') posed' (shut ended)
  let done := (m.handAll inbox').doing x.asker heard .chores
  have id : done.node.id = x.asker := by
    have config := (orderly.working found' .chores).2.2.2.2
    exact (congrArg (fun c : NodeConfig => c.discovery.nodeId) config).trans
      (orderly.named x.asker heard found')
  refine ⟨done.node, ?_, rid.1, ?_⟩
  · exact (get?_work found' .chores x.asker).trans (if_pos rfl)
  · have unlisted := rid.2
    rw [id] at unlisted
    exact (congrArg (fun h => h.broker.subscribed x.answers x.asker)
      (hub_work found' .chores)).trans unlisted

/-- The question of a node's request, as it is handed to the other one. -/
def questionOf (number : Nat) (payload : Bytes) (correlation : String) : Delivery where
  topic := "q"
  payload := payload
  protocol := .broker
  qos := .atMostOnce
  correlation := some correlation
  replyTopic := some (replyTopic "q" "a" number)
  sequence := 0
  isLast := false
  frame := none

/-- The second of two requests of one node. -/
def secondRequest : Exchange :=
  ⟨"a", "b", 1, "q", [2], .atMostOnce, some "two", "c2"⟩

/-- Two nodes join, one of them serves a topic, and the other one asks for the first time. -/
def oneAsked : List Turn :=
  [.work "a" (.call .connect), .work "b" (.call .connect),
    .work "b" (.call (.subscribe "q" ⟨"serve", none⟩ (.only .broker) .atMostOnce)),
    .work "a" (.request "q" [1] .atMostOnce (some "one") "c1")]

/-- Both questions are taken and answered, the answers to the second one before and after
the answer to the first one; then there is a publication on the topic for answers. -/
def crossed : List Turn :=
  [.hand 1, .hand 1, .hand 1,
    .work "b" (.reply (questionOf 1 [2] "two") [7] false),
    .work "b" (.reply (questionOf 0 [1] "one") [9] true),
    .work "b" (.reply (questionOf 1 [2] "two") [8] true),
    .work "b" (.post (.plain (replyTopic "q" "a" 1) [6] .atMostOnce false))]

theorem before_oneAsked : secondRequest.Before (new pair 0 7000) oneAsked := by
  have apart : "q" ≠ replyTopic "q" "a" 1 := (replyTopic_ne "q" "a" 1).symm
  simpa [oneAsked, Before, Own, Quiet, Turn.answer?, secondRequest, answers] using apart

theorem after_crossed :
    secondRequest.After (secondRequest.ask.result (play (new pair 0 7000) oneAsked)) [] crossed := by
  have other : (questionOf 0 [1] "one").replyTopic ≠ some secondRequest.answers := by decide
  -- the second question has been taken
  have taken : ∀ m : Mesh,
      (m.nodes.get? "b").map (fun n => decide (("serve", questionOf 1 [2] "two") ∈ n.invoked)) =
        some true →
      ∀ n, m.nodes.get? "b" = some n → ∃ name, (name, questionOf 1 [2] "two") ∈ n.invoked := by
    intro m noted n found
    rw [found] at noted
    exact ⟨"serve", of_decide_eq_true (Option.some.inj noted)⟩
  refine ⟨⟨trivial, trivial, fun _ => ⟨trivial, trivial⟩⟩,
    ⟨trivial, trivial, fun _ => ⟨trivial, trivial⟩⟩,
    ⟨trivial, trivial, fun _ => ⟨trivial, trivial⟩⟩,
    ⟨trivial, trivial, fun _ => ⟨trivial, fun _ => ⟨rfl, ?first⟩⟩⟩,
    ⟨trivial, trivial, fun _ => ⟨trivial, fun same => absurd same other⟩⟩,
    ⟨trivial, trivial, fun _ => ⟨trivial, fun _ => ⟨rfl, ?last⟩⟩⟩,
    ⟨trivial, trivial, fun going => ?ended⟩, trivial⟩
  case first => exact taken _ (by decide +kernel)
  case last => exact taken _ (by decide +kernel)
  case ended =>
    have given : isOver (secondRequest.series crossed) = true := by decide +kernel
    exact absurd (given.symm.trans going) (by decide)

/-- The callback of the second request is called with its two answers, and its
subscription ends. -/
theorem answered_crosswise :
    let m := play (secondRequest.ask.result (play (new pair 0 7000) oneAsked)) crossed
    ∃ inbox heard, (m.handAll inbox).nodes.get? "a" = some heard ∧
      heard.log secondRequest.answers =
        [("c2", secondRequest.delivery 0 ([7], false)), ("c2", secondRequest.delivery 1 ([8], true))] ∧
      ((m.handAll inbox).doChores "a").hub.broker.subscribed secondRequest.answers "a" = false := by
  intro m
  let m₀ := play (new pair 0 7000) oneAsked
  obtain ⟨n, asking⟩ : ∃ n, m₀.nodes.get? "a" = some n :=
    Option.isSome_iff_exists.1 (by decide +kernel)
  obtain ⟨r, answering⟩ : ∃ r, m₀.nodes.get? "b" = some r :=
    Option.isSome_iff_exists.1 (by decide +kernel)
  have asker : n.nextRequest = 1 ∧ n.line.isConnected m₀.hub = true := by
    have : (m₀.nodes.get? "a").map (fun n =>
        decide (n.nextRequest = 1 ∧ n.line.isConnected m₀.hub = true)) = some true := by
      decide +kernel
    rw [asking] at this
    exact of_decide_eq_true (Option.some.inj this)
  have answerer : r.line.isConnected m₀.hub = true := by
    have : (m₀.nodes.get? "b").map (fun n => n.line.isConnected m₀.hub) = some true := by
      decide +kernel
    rw [answering] at this
    exact Option.some.inj this
  have plain : ∀ c ∈ pair, secondRequest.Plain c.discovery := by
    intro c there
    rcases List.mem_cons.1 there with rfl | there
    · exact ⟨by decide +kernel, by decide⟩
    · obtain rfl := List.mem_singleton.1 there
      exact ⟨by decide +kernel, by decide⟩
  obtain ⟨_, inbox, heard, -, -, -, -, found, log, -, -, done⟩ :=
    answered_in_order secondRequest pair 0 7000 oneAsked crossed (by decide) (by decide +kernel) plain
      before_oneAsked asking asker.1 asker.2 answering answerer after_crossed
  obtain ⟨_, -, -, unlisted⟩ := done (by decide +kernel)
  have series : secondRequest.series crossed = [([7], false), ([8], true)] := by decide +kernel
  rw [series] at log
  exact ⟨inbox, heard, found, log, unlisted⟩

end TopicMesh.Mesh.Exchange
