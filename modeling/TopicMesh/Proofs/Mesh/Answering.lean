import TopicMesh.Proofs.Mesh.Exchange

/-!
# While answers come

While the asker and the answerer stay connected, whatever else happens in the mesh, the
calls of the request's callback and the answers that wait for it make up the series of
answers so far (`Stage.waiting`); once the last answer was taken, the callback is silent
and its subscription is due to end (`Stage.settled`).

The asker's own jobs change nothing of that (`follows_doing`), nor does what others do at
the hub (`follows_work`), and what a job adds to the asker's queue it adds to the series
(`due_work`, `due_answer`).  So jobs keep an exchange under way (`running_work`): the
answers come with the next number, and what others publish on the topic after the last
answer stays behind it.
-/

namespace TopicMesh.Mesh.Exchange

open Node Act

variable {x : Exchange} {m : Mesh} {inbox : Nat} {s s' : Station}
  {series : List (Bytes × Bool)}

/-! ## The asker -/

/-- Whether an asker is connected, and has asked. -/
structure Posed (x : Exchange) (inbox : Nat) (s : Station) : Prop where
  attached : s.node.line.inbox = some inbox
  passed : x.number < s.node.nextRequest
  sole : x.Sole s.node

/-- Whether the callback is not silent yet. -/
structure Open (x : Exchange) (s : Station) : Prop where
  held : s.Held x.answers x.record
  open_ : x.number ∉ s.node.finished
  unmarked : x.answers ∉ s.node.chores

/-- Whether the callback is silent, and its subscription has ended or is due to end. -/
structure Shut (x : Exchange) (s : Station) : Prop where
  finished : x.number ∈ s.node.finished
  dropped : s.Rid x.answers ∨ x.answers ∈ s.node.chores ∧ s.Held x.answers x.record

/-- Whether something changes nothing for the exchange at its asker. -/
structure Follows (x : Exchange) (inbox : Nat) (s s' : Station) : Prop where
  posed : x.Posed inbox s'
  log : s'.node.log x.answers = s.node.log x.answers
  opened : x.Open s → x.Open s'
  shut : x.Shut s → x.Shut s'

theorem Follows.trans {s'' : Station} (first : x.Follows inbox s s')
    (second : x.Follows inbox s' s'') : x.Follows inbox s s'' where
  posed := second.posed
  log := second.log.trans first.log
  opened open_ := second.opened (first.opened open_)
  shut shut := second.shut (first.shut shut)

/-- What leaves the asker's line, records and notes alone. -/
theorem follows_of_keeps (posed : x.Posed inbox s) (config : s'.node.config = s.node.config)
    (line : s'.node.line = s.node.line) (subscriptions : s'.node.subscriptions = s.node.subscriptions)
    (next : s.node.nextRequest ≤ s'.node.nextRequest)
    (log : s'.node.log x.answers = s.node.log x.answers)
    (finished : x.number ∈ s'.node.finished ↔ x.number ∈ s.node.finished)
    (chores : x.answers ∈ s'.node.chores ↔ x.answers ∈ s.node.chores)
    (listed : s'.hub.broker.subscribed x.answers s.node.id =
      s.hub.broker.subscribed x.answers s.node.id) : x.Follows inbox s s' := by
  have id : s'.node.id = s.node.id := congrArg (fun c : NodeConfig => c.discovery.nodeId) config
  have held := Station.held_congr subscriptions id listed x.record
  have rid := Station.rid_congr subscriptions id listed
  refine ⟨⟨?_, Nat.lt_of_lt_of_le posed.passed next, ?_⟩, log, fun open_ => ?_, fun shut => ?_⟩
  · rw [line]
    exact posed.attached
  · intro topic record known
    exact posed.sole topic record (subscriptions ▸ known)
  · exact ⟨held.2 open_.held, fun there => open_.open_ (finished.1 there),
      fun there => open_.unmarked (chores.1 there)⟩
  · exact ⟨finished.2 shut.finished,
      shut.dropped.imp rid.2 fun both => ⟨chores.2 both.1, held.2 both.2⟩⟩

/-- A course of moves that do not touch the answers. -/
theorem follows_course {L : License} (posed : x.Posed inbox s) (course : Station.Course L s s')
    (plain : x.Plain s.node.config.discovery) (stays : ¬L.roams)
    (joins : ∀ topic c, L.joins topic c → topic ≠ x.answers ∧ c.request ≠ some x.number)
    (ends : ¬L.ends x.answers) : x.Follows inbox s s' := by
  obtain ⟨finished, chores, invoked, next⟩ := course.notes
  have no_joins : ∀ c, ¬L.joins x.answers c := fun c may => (joins _ c may).1 rfl
  refine ⟨⟨(course.settled stays).1.trans posed.attached, next.symm ▸ posed.passed, ?_⟩, ?_,
    fun open_ => ⟨course.held stays no_joins ends open_.held, ?_, ?_⟩, fun shut => ⟨?_, ?_⟩⟩
  · exact course.hasOnly (fun topic c may same => absurd same (joins topic c may).2) posed.sole
  · unfold Node.log
    rw [invoked]
  · rw [finished]
    exact open_.open_
  · rw [chores]
    exact open_.unmarked
  · rw [finished]
    exact shut.finished
  · rw [chores]
    exact shut.dropped.imp (course.rid stays no_joins plain.ne_filter) fun both =>
      ⟨both.1, course.held stays no_joins ends both.2⟩

/-- When the chores are done, the subscription of the answers has ended. -/
theorem rid_of_chores (orderly : m.Orderly) {n : Node} (asking : m.nodes.get? x.asker = some n)
    (plain : x.Plain n.config.discovery) (posed : x.Posed inbox (m.station x.asker n))
    (shut : x.Shut (m.station x.asker n)) : (m.doing x.asker n .chores).Rid x.answers := by
  let ready : Station := m.station x.asker { n with chores := [] }
  have moored : ready.Moored := (orderly.working asking .chores).1
  have up : ready.isConnected = true := by
    have attached : ready.node.line.inbox = some inbox := posed.attached
    rw [moored.isConnected, attached]
    rfl
  exact rid_doChores (s := ready) n.chores (orderly.steady x.asker) moored orderly.sound up
    plain.ne_filter rfl rfl shut.dropped

/-- **A job of the asker that leaves the exchange alone** changes nothing for it. -/
theorem follows_doing (orderly : m.Orderly) {n : Node} {job : Job}
    (asking : m.nodes.get? x.asker = some n) (plain : x.Plain n.config.discovery)
    (own : x.Own (.work x.asker job)) (remains : x.Remains (.work x.asker job))
    (posed : x.Posed inbox (m.station x.asker n)) :
    x.Follows inbox (m.station x.asker n) (m.doing x.asker n job) := by
  obtain ⟨moored, course, -⟩ := orderly.working asking job
  obtain ⟨config, line, subscriptions, finished, invoked⟩ := job.prepare_keeps n
  have attached : n.line.inbox = some inbox := posed.attached
  have passed : x.number < n.nextRequest := posed.passed
  have stays : ¬(job.license n).roams := remains.stays (.inl rfl) (by rw [attached]; rfl)
  have joins : ∀ topic c, (job.license n).joins topic c →
      topic ≠ x.answers ∧ c.request ≠ some x.number :=
    fun topic c may => joins_elsewhere own (.inr passed) may
  by_cases due : job = .chores ∧ x.answers ∈ n.chores
  · obtain ⟨rfl, due⟩ := due
    -- nothing but the end of the subscription can happen to it
    have next := course.notes.2.2.2
    refine ⟨⟨(course.settled stays).1.trans attached, next.symm ▸ passed, ?_⟩, ?_,
      fun open_ => absurd due open_.unmarked, fun shut => ⟨?_, ?_⟩⟩
    · exact course.hasOnly (fun topic c may same => absurd same (joins topic c may).2) posed.sole
    · exact congrArg (List.filter _) course.notes.2.2.1
    · rw [course.notes.1]
      exact shut.finished
    · exact .inl (rid_of_chores orderly asking plain posed shut)
  · have chores : x.answers ∈ (job.prepare n).chores ↔ x.answers ∈ n.chores := by
      refine ⟨Job.mem_chores_of_prepare, fun there => ?_⟩
      rw [Job.chores_prepare n fun same => due ⟨same, there⟩]
      exact there
    have ready : x.Follows inbox (m.station x.asker n) (m.station x.asker (job.prepare n)) :=
      follows_of_keeps posed config line subscriptions (job.nextRequest_le n)
        (congrArg (List.filter _) invoked) (iff_of_eq (congrArg (x.number ∈ ·) finished))
        chores rfl
    refine ready.trans (follows_course ready.posed course ?_ stays joins
      fun ends => due (ends_cases own passed ends))
    rw [show (m.station x.asker (job.prepare n)).node.config = n.config from config]
    exact plain

/-! ## How far the exchange is -/

/-- **How far an exchange is at its asker.** -/
inductive Stage (x : Exchange) (series : List (Bytes × Bool)) (inbox : Nat) (s : Station) : Prop
  /-- What the callback has been called with and what waits for it is the series.  Only
  behind the last answer there may be something else. -/
  | waiting (rest junk : List Delivery) :
    x.Open s → s.hub.due inbox x.answers = rest ++ junk →
    s.node.log x.answers ++ rest.map (fun d => (x.callback, d)) = x.calls series →
    (isOver series = false → junk = []) → (isOver series = true → rest ≠ []) →
    Stage x series inbox s
  /-- The callback has been called with the whole series, and will not be called again. -/
  | settled :
    x.Shut s → isOver series = true → s.node.log x.answers = x.calls series →
    Stage x series inbox s

/-- Whether no other inbox of the asker holds answers. -/
def NoneElsewhere (x : Exchange) (inbox : Nat) (m : Mesh) : Prop :=
  ∀ other, other ≠ inbox → m.hub.ownerOf? other = some x.asker → m.hub.due other x.answers = []

/-- What holds until the last answer: whoever was asked knows what to answer with, nothing
is kept for the topic, and the answerer has the next number. -/
structure Going (x : Exchange) (series : List (Bytes × Bool)) (m : Mesh) : Prop where
  marks : m.Bears fun d => d.replyTopic = some x.answers → d.correlation = x.correlation ∧ d.qos = x.qos
  kept : m.hub.kept x.answers = none
  answerer : ∃ r, m.nodes.get? x.answerer = some r ∧ r.line.inbox.isSome = true ∧
    (r.replySequences.get? x.answers).getD 0 = .ofNat series.length

/-- **A mesh in which an exchange is under way.** -/
structure Running (x : Exchange) (series : List (Bytes × Bool)) (m : Mesh) : Prop where
  orderly : m.Orderly
  plain : ∀ id n, m.nodes.get? id = some n → x.Plain n.config.discovery
  proper : Proper series
  asker : ∃ n inbox, m.nodes.get? x.asker = some n ∧ x.Posed inbox (m.station x.asker n) ∧
    x.NoneElsewhere inbox m ∧ x.Stage series inbox (m.station x.asker n)
  going : isOver series = false → x.Going series m

/-- The hub knows the asker's inbox. -/
theorem Posed.reads (orderly : m.Orderly) {n : Node} (asking : m.nodes.get? x.asker = some n)
    (posed : x.Posed inbox (m.station x.asker n)) :
    m.hub.inboxOf x.asker = some inbox ∧ m.hub.ownerOf? inbox = some x.asker := by
  have moored := (orderly.moored x.asker n asking).inbox
  rw [show (m.station x.asker n).node.id = x.asker from orderly.named x.asker n asking] at moored
  have reads : m.hub.inboxOf x.asker = some inbox := moored.trans posed.attached
  exact ⟨reads, orderly.sound.ownerOf?_of_inboxOf reads⟩

theorem extend_of_isOver {topic : String} (ended : isOver series = true) (turn : Turn) :
    extend topic series turn = series :=
  if_pos ended

theorem extend_of_going {topic : String} (going : isOver series = false) (turn : Turn) :
    extend topic series turn = series ++ (turn.answer? topic).toList :=
  if_neg (by rw [going]; exact Bool.false_ne_true)

theorem extend_of_none {topic : String} {turn : Turn} (none_given : turn.answer? topic = none)
    (series : List (Bytes × Bool)) : extend topic series turn = series := by
  unfold extend
  rw [none_given]
  split
  · rfl
  · exact List.append_nil series

/-- What changes nothing for the exchange, and nothing in the asker's inbox. -/
theorem stage_stays (stage : x.Stage series inbox s) (follows : x.Follows inbox s s')
    (due : s'.hub.due inbox x.answers = s.hub.due inbox x.answers) : x.Stage series inbox s' := by
  cases stage with
  | waiting rest junk open_ queue log clean last =>
    exact .waiting rest junk (follows.opened open_) (due.trans queue) (follows.log.symm ▸ log) clean
      last
  | settled shut ended log =>
    exact .settled (follows.shut shut) ended (follows.log.trans log)

/-- What a turn adds to the asker's inbox it adds to the series. -/
theorem stage_grown (stage : x.Stage series inbox s) (follows : x.Follows inbox s s') (turn : Turn)
    {more : List Delivery} (due : s'.hub.due inbox x.answers = s.hub.due inbox x.answers ++ more)
    (adds : isOver series = false →
      more = (turn.answer? x.answers).toList.map (x.delivery series.length)) :
    x.Stage (extend x.answers series turn) inbox s' := by
  cases stage with
  | settled shut ended log =>
    rw [extend_of_isOver ended]
    exact .settled (follows.shut shut) ended (follows.log.trans log)
  | waiting rest junk open_ queue log clean last =>
    rw [queue] at due
    cases ended : isOver series with
    | true =>
      -- what comes now stays behind the last answer
      rw [extend_of_isOver ended]
      refine .waiting rest (junk ++ more) (follows.opened open_) ?_ (follows.log.symm ▸ log)
        (fun going => ?_) last
      · rw [due, List.append_assoc]
      · rw [ended] at going
        cases going
    | false =>
      rw [clean ended, List.append_nil] at due
      have added := adds ended
      rw [extend_of_going ended]
      cases given : turn.answer? x.answers with
      | none =>
        rw [given] at added
        rw [Option.toList_none, List.append_nil]
        refine .waiting rest [] (follows.opened open_) ?_ (follows.log.symm ▸ log) (fun _ => rfl) last
        rw [due, added]
        rfl
      | some a =>
        rw [given] at added
        refine .waiting (rest ++ more) [] (follows.opened open_) ?_ ?_ (fun _ => rfl) (fun _ => ?_)
        · rw [due, List.append_nil]
        · rw [Option.toList_some, calls_extend, ← log, follows.log, added]
          simp
        · rw [added]
          simp

/-! ## Jobs -/

section Jobs

variable {id : String} {worker n : Node} {job : Job}

/-- What the asker's inboxes get from a job. -/
theorem due_work (orderly : m.Orderly) (working : m.nodes.get? id = some worker)
    (asking : m.nodes.get? x.asker = some n) (remains : x.Remains (.work id job))
    (posed : x.Posed inbox (m.station x.asker n)) {other : Nat}
    (owner : ((Turn.work id job).result m).hub.ownerOf? other = some x.asker) :
    m.hub.ownerOf? other = some x.asker ∧
    ∃ more, ((Turn.work id job).result m).hub.due other x.answers =
      m.hub.due other x.answers ++ more ∧
      (other ≠ inbox → more = []) ∧
      ((∀ message, Station.Speech (job.license worker) worker message →
        message.topic ≠ x.answers) → m.hub.kept x.answers = none → more = []) := by
  obtain ⟨-, -, stirred, -⟩ := orderly.working working job
  have attached : n.line.inbox = some inbox := posed.attached
  -- whoever comes or goes is not the asker
  have elsewhere : (job.license worker).roams → id ≠ x.asker := by
    rintro roams rfl
    cases working.symm.trans asking
    exact remains.stays (.inl rfl) (by rw [attached]; rfl) roams
  rw [hub_work working] at owner ⊢
  obtain ⟨owned, grown⟩ := stirred.queue orderly.sound elsewhere owner
  obtain ⟨more, after, silent⟩ := Hub.due_of_grown grown x.answers
  refine ⟨owned, more, after, fun apart => silent (.inl ?_), fun quiet nothing =>
    silent (.inr ⟨quiet, nothing⟩)⟩
  rw [(posed.reads orderly asking).1]
  exact fun same => apart (Option.some.inj same).symm

/-- The asker after a job of anybody that leaves the exchange alone. -/
theorem follows_work (running : x.Running series m) (working : m.nodes.get? id = some worker)
    (asking : m.nodes.get? x.asker = some n) (own : x.Own (.work id job))
    (remains : x.Remains (.work id job)) (posed : x.Posed inbox (m.station x.asker n)) :
    ∃ n', ((Turn.work id job).result m).nodes.get? x.asker = some n' ∧
      x.Follows inbox (m.station x.asker n) (((Turn.work id job).result m).station x.asker n') := by
  have orderly := running.orderly
  rw [get?_work working]
  by_cases same : id = x.asker
  · subst same
    cases working.symm.trans asking
    refine ⟨_, if_pos rfl, ?_⟩
    rw [orderly.station_work working job]
    exact follows_doing orderly asking (running.plain _ _ asking) own remains posed
  · refine ⟨n, (if_neg same).trans asking, ?_⟩
    refine follows_of_keeps posed rfl rfl rfl (Nat.le_refl _) rfl .rfl .rfl ?_
    have named : (m.station x.asker n).node.id = x.asker := orderly.named x.asker n asking
    rw [named]
    show ((Turn.work id job).result m).hub.broker.subscribed x.answers x.asker = _
    rw [hub_work working]
    exact (orderly.working working job).2.2.1.others_subscribed same x.answers

/-- **An answer joins the asker's queue** with the next number. -/
theorem due_answer (running : x.Running series m) (going : x.Going series m)
    (asking : m.nodes.get? x.asker = some n) (posed : x.Posed inbox (m.station x.asker n))
    (open_ : x.Open (m.station x.asker n)) (working : m.nodes.get? x.answerer = some worker)
    {d : Delivery} {name : String} (asked : (name, d) ∈ worker.invoked)
    (wanted : d.replyTopic = some x.answers) (payload : Bytes) (isLast : Bool) :
    ((Turn.work x.answerer (.reply d payload isLast)).result m).hub.due inbox x.answers =
      m.hub.due inbox x.answers ++ [x.delivery series.length (payload, isLast)] := by
  have orderly := running.orderly
  obtain ⟨correlation, qos⟩ := going.marks.heard x.answerer worker working (name, d) asked wanted
  obtain ⟨r, answering, attached, number⟩ := going.answerer
  cases answering.symm.trans working
  have up : (m.station x.answerer worker).isConnected = true := by
    rw [(orderly.moored x.answerer worker working).isConnected]
    exact attached
  let message := worker.answer d payload isLast x.answers
  have hub : ((Turn.work x.answerer (.reply d payload isLast)).result m).hub =
      m.hub.publish message := by
    rw [hub_work working]
    exact congrArg Station.hub (after_ok (reply_connected (s := m.station x.answerer worker)
      (orderly.steady x.answerer) up wanted payload isLast))
  have listed : m.hub.broker.subscribed x.answers x.asker = true := by
    have listed := open_.held.2
    rw [show (m.station x.asker n).node.id = x.asker from orderly.named x.asker n asking] at listed
    exact listed
  have brings : Delivery.ofMessage message = x.delivery series.length (payload, isLast) := by
    show Delivery.ofMessage (worker.answer d payload isLast x.answers) = _
    unfold Node.answer
    rw [correlation, qos, number]
    rfl
  rw [hub, ← brings]
  exact Hub.due_publish_of_subscribed (m := message) orderly.sound (posed.reads orderly asking).1 listed

/-- What a turn that leaves the exchange alone publishes while answers are to come. -/
theorem speech_of_running (running : x.Running series m) (working : m.nodes.get? id = some worker)
    (asking : m.nodes.get? x.asker = some n) (posed : x.Posed inbox (m.station x.asker n))
    (quiet : x.Quiet m (.work id job)) {message : Message}
    (spoken : Station.Speech (job.license worker) worker message) :
    (∃ d payload isLast, job = .reply d payload isLast ∧ d.replyTopic = some x.answers ∧
      message = worker.answer d payload isLast x.answers) ∨
    message.topic ≠ x.answers ∧ (Delivery.ofMessage message).replyTopic ≠ some x.answers := by
  refine speech_cases quiet working (running.orderly.named id worker working)
    (running.plain id worker working) (fun same => ?_) spoken
  subst same
  cases working.symm.trans asking
  exact .inr posed.passed

/-- A turn that gives no answer publishes nothing on the topic for answers. -/
theorem quiet_of_none (running : x.Running series m) (working : m.nodes.get? id = some worker)
    (asking : m.nodes.get? x.asker = some n) (posed : x.Posed inbox (m.station x.asker n))
    (quiet : x.Quiet m (.work id job)) (none_given : (Turn.work id job).answer? x.answers = none)
    (message : Message) (spoken : Station.Speech (job.license worker) worker message) :
    message.topic ≠ x.answers := by
  rcases speech_of_running running working asking posed quiet spoken with
    ⟨d, payload, isLast, is, wanted, -⟩ | ⟨topic, -⟩
  · exact absurd wanted (replyTopic_ne_of_answer? none_given d payload isLast is)
  · exact topic

/-- The answerer after a job of its own: its next number is the length of the series. -/
theorem answerer_doing (running : x.Running series m) (working : m.nodes.get? x.answerer = some worker)
    (attached : worker.line.inbox.isSome = true)
    (number : (worker.replySequences.get? x.answers).getD 0 = .ofNat series.length)
    (remains : x.Remains (.work x.answerer job)) (going : isOver series = false)
    (goes_on : isOver (extend x.answers series (.work x.answerer job)) = false) :
    (m.doing x.answerer worker job).node.line.inbox.isSome = true ∧
      ((m.doing x.answerer worker job).node.replySequences.get? x.answers).getD 0 =
        .ofNat (extend x.answers series (.work x.answerer job)).length := by
  obtain ⟨-, course, -⟩ := running.orderly.working working job
  obtain ⟨inbox, sequences⟩ := course.settled (remains.stays (.inr rfl) attached)
  obtain ⟨-, line, -⟩ := job.prepare_keeps worker
  rw [inbox, sequences]
  refine ⟨(congrArg (fun l => l.inbox.isSome) line).trans attached, ?_⟩
  show ((job.prepare worker).replySequences.get? x.answers).getD 0 = _
  rw [extend_of_going going] at goes_on ⊢
  cases given : (Turn.work x.answerer job).answer? x.answers with
  | none =>
    rw [Job.replySequences_prepare (replyTopic_ne_of_answer? given), number, Option.toList_none, List.append_nil]
  | some a =>
    rw [given] at goes_on
    have not_last : a.2 = false := by
      unfold isOver at goes_on
      rw [Option.toList_some, List.any_append] at goes_on
      simpa using (Bool.or_eq_false_iff.1 goes_on).2
    obtain ⟨_, d, same, wanted⟩ := answer?_eq_some given
    cases same
    rw [Job.prepare_reply, wanted, Option.toList_some, List.length_append]
    show ((worker.advanced x.answers a.2).replySequences.get? x.answers).getD 0 = _
    unfold Node.advanced
    rw [not_last, number]
    show ((KeyMap.insert ..).get? x.answers).getD 0 = _
    rw [KeyMap.get?_insert, if_pos rfl]
    show UInt32.ofNat series.length + 1 = _
    rw [List.length_singleton, UInt32.ofNat_add]
    rfl

/-- A turn before the last answer keeps the exchange going. -/
theorem going_work (running : x.Running series m) (working : m.nodes.get? id = some worker)
    (asking : m.nodes.get? x.asker = some n) (posed : x.Posed inbox (m.station x.asker n))
    (remains : x.Remains (.work id job)) (quiet : x.Quiet m (.work id job))
    (heeds : x.Answered m (.work id job)) (ended : isOver series = false)
    (goes_on : isOver (extend x.answers series (.work id job)) = false) :
    x.Going (extend x.answers series (.work id job)) ((Turn.work id job).result m) := by
  have going := running.going ended
  have orderly := running.orderly
  refine ⟨bears_work orderly going.marks working fun message spoken wants => ?_, ?_, ?_⟩
  · rcases speech_of_running running working asking posed quiet spoken with
      ⟨d, payload, isLast, rfl, wanted, rfl⟩ | ⟨-, other⟩
    · obtain ⟨-, asked⟩ := heeds wanted
      obtain ⟨name, asked⟩ := asked worker working
      exact going.marks.heard id worker working (name, d) asked wanted
    · exact absurd wants other
  · rw [hub_work working]
    refine ((orderly.working working job).2.2.1.kept fun message spoken same => ?_).trans going.kept
    rcases speech_of_running running working asking posed quiet spoken with
      ⟨d, payload, isLast, rfl, wanted, rfl⟩ | ⟨other, -⟩
    · rfl
    · exact absurd same other
  · obtain ⟨r, answering, attached, number⟩ := going.answerer
    rw [get?_work working]
    by_cases same : id = x.answerer
    · subst same
      cases answering.symm.trans working
      exact ⟨_, if_pos rfl,
        answerer_doing running answering attached number remains ended goes_on⟩
    · refine ⟨r, (if_neg same).trans answering, attached, ?_⟩
      rw [number]
      cases given : (Turn.work id job).answer? x.answers with
      | none => rw [extend_of_none given]
      | some a =>
        obtain ⟨_, d, is, wanted⟩ := answer?_eq_some given
        cases is
        exact absurd (heeds wanted).1 same

/-- A job of a node that does not exist adds nothing to the series. -/
theorem extend_of_absent (running : x.Running series m) (absent : m.nodes.get? id = none)
    (leaves : isOver series = false → x.Answered m (.work id job)) :
    extend x.answers series (.work id job) = series := by
  cases given : (Turn.work id job).answer? x.answers with
  | none => exact extend_of_none given series
  | some a =>
    cases ended : isOver series with
    | true => exact extend_of_isOver ended _
    | false =>
      -- then the answerer would be a node of the mesh
      obtain ⟨_, d, is, wanted⟩ := answer?_eq_some given
      cases is
      obtain ⟨r, answering, -⟩ := (running.going ended).answerer
      rw [← (leaves ended wanted).1, absent] at answering
      cases answering

/-- The asker's stage after a job of anybody. -/
theorem stage_work (running : x.Running series m) (working : m.nodes.get? id = some worker)
    (asking : m.nodes.get? x.asker = some n) (posed : x.Posed inbox (m.station x.asker n))
    (stage : x.Stage series inbox (m.station x.asker n)) {n' : Node}
    (asking' : ((Turn.work id job).result m).nodes.get? x.asker = some n')
    (follows : x.Follows inbox (m.station x.asker n)
      (((Turn.work id job).result m).station x.asker n'))
    (remains : x.Remains (.work id job))
    (leaves : isOver series = false → x.Quiet m (.work id job) ∧ x.Answered m (.work id job)) :
    x.Stage (extend x.answers series (.work id job)) inbox
      (((Turn.work id job).result m).station x.asker n') := by
  have orderly' := orderly_work running.orderly id job
  obtain ⟨-, more, due, -, quiet_none⟩ := due_work running.orderly working asking remains posed
    (follows.posed.reads orderly' asking').2
  refine stage_grown stage follows _ due fun going => ?_
  obtain ⟨quiet, heeds⟩ := leaves going
  -- an answer joins the queue, and any other job leaves the topic alone
  cases given : (Turn.work id job).answer? x.answers with
  | none =>
    exact quiet_none (quiet_of_none running working asking posed quiet given)
      (running.going going).kept
  | some a =>
    obtain ⟨_, d, is, wanted⟩ := answer?_eq_some given
    cases is
    obtain ⟨rfl, asked⟩ := heeds wanted
    obtain ⟨name, asked⟩ := asked worker working
    have open_ : x.Open (m.station x.asker n) := by
      cases stage with
      | waiting _ _ open_ => exact open_
      | settled _ ended =>
        rw [ended] at going
        cases going
    rw [due_answer running (running.going going) asking posed open_ working asked wanted] at due
    exact (List.append_cancel_left due).symm

/-- **A job that leaves the exchange alone** keeps it under way. -/
theorem running_work (running : x.Running series m) (own : x.Own (.work id job))
    (remains : x.Remains (.work id job))
    (leaves : isOver series = false → x.Quiet m (.work id job) ∧ x.Answered m (.work id job)) :
    x.Running (extend x.answers series (.work id job)) ((Turn.work id job).result m) := by
  have orderly := running.orderly
  obtain ⟨n, inbox, asking, posed, elsewhere, stage⟩ := running.asker
  cases working : m.nodes.get? id with
  | none =>
    rw [work_of_none working, extend_of_absent running working fun going => (leaves going).2]
    exact running
  | some worker =>
    obtain ⟨n', asking', follows⟩ := follows_work running working asking own remains posed
    refine ⟨orderly_work orderly id job, plain_turn orderly running.plain _,
      proper_extend running.proper _ _,
      ⟨n', inbox, asking', follows.posed, fun other apart owner => ?_,
        stage_work running working asking posed stage asking' follows remains leaves⟩,
      fun goes_on => ?_⟩
    · obtain ⟨owned, more, due, nothing, -⟩ := due_work orderly working asking remains posed owner
      rw [due, elsewhere other apart owned, nothing apart]
      rfl
    · cases ended : isOver series with
      | true =>
        rw [extend_of_isOver ended, ended] at goes_on
        cases goes_on
      | false =>
        obtain ⟨quiet, heeds⟩ := leaves ended
        exact going_work running working asking posed remains quiet heeds ended goes_on

end Jobs

end TopicMesh.Mesh.Exchange
