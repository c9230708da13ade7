import TopicMesh.Proofs.Node.Records

/-!
# The jobs of a node

What the owner of a node asks for, and what the node does by itself, are its **jobs**
(`Job`).  Each begins with a little bookkeeping in the node (`Job.prepare`): a request
takes its number, an answer its place in the sequence.  What follows is a course of
moves, for which each job has a license (`Job.license`, `course_job`).
-/

namespace TopicMesh

open Node Act

namespace Node

/-- The message that asks for answers. -/
def question (topic : String) (payload : Bytes) (qos : QoS) (answers : String)
    (correlation : Option String) : Message :=
  { Message.plain topic payload qos false with reply := some ⟨answers, correlation, 0, false⟩ }

/-- The next answer of a node on a topic. -/
def answer (n : Node) (d : Delivery) (payload : Bytes) (isLast : Bool) (topic : String) : Message :=
  { Message.plain topic payload d.qos false with
    reply := some ⟨topic, d.correlation, (n.replySequences.get? topic).getD 0, isLast⟩ }

/-- The node after it has taken the number of a request. -/
def counted (n : Node) : Node :=
  { n with nextRequest := n.nextRequest + 1 }

/-- The node after it has taken the place of an answer in its sequence. -/
def advanced (n : Node) (topic : String) (isLast : Bool) : Node :=
  { n with
    replySequences :=
      if isLast then n.replySequences.erase topic
      else n.replySequences.insert topic ((n.replySequences.get? topic).getD 0 + 1) }

/-- What a node has to do. -/
inductive Job
  | call (c : Call)
  | request (topic : String) (payload : Bytes) (qos : QoS) (correlation : Option String)
    (callback : String)
  | reply (d : Delivery) (payload : Bytes) (isLast : Bool)
  /-- A message is published as it is. -/
  | post (m : Message)
  /-- The subscriptions whose last answer has come are dropped. -/
  | chores

namespace Job

/-- What a job does. -/
def act : Job → Act Unit
  | call c => c.act
  | request topic payload qos correlation callback =>
    Node.request topic payload qos correlation callback
  | reply d payload isLast => Node.reply d payload isLast
  | post m => Act.post m
  | chores => do
    let n ← node
    changeNode fun n => { n with chores := [] }
    doChores n.chores

/-- The node when a job begins. -/
def prepare (n : Node) : Job → Node
  | request topic _ _ _ _ => if topic = "" then n else n.counted
  | reply d _ isLast => d.replyTopic.elim n fun topic => n.advanced topic isLast
  | chores => { n with chores := [] }
  | _ => n

end Job

/-- What a call may do. -/
def Call.license (n : Node) : Call → License
  | connect => ⟨fun _ _ => False, fun _ => False, fun _ => False, n.line.inbox = none⟩
  | subscribe topic callback _ _ =>
    ⟨fun t c => t = topic ∧ c = callback, (· = topic), fun _ => False, False⟩
  | unsubscribe topic => ⟨fun _ _ => False, (· = topic), fun _ => False, False⟩
  | disconnect => ⟨fun _ _ => False, fun _ => False, fun _ => False, True⟩
  | abort => ⟨fun _ _ => False, fun _ => False, fun _ => False, True⟩

/-- What a job may do. -/
def Job.license (n : Node) : Job → License
  | call c => c.license n
  | request topic payload qos correlation callback =>
    let answers := replyTopic topic n.id n.nextRequest
    ⟨fun t c => topic ≠ "" ∧ t = answers ∧ c = ⟨callback, some n.nextRequest⟩, (· = answers),
      fun m => topic ≠ "" ∧ m = question topic payload qos answers correlation, False⟩
  | reply d payload isLast =>
    ⟨fun _ _ => False, fun _ => False,
      fun m => ∃ topic, d.replyTopic = some topic ∧ m = n.answer d payload isLast topic, False⟩
  | post m => ⟨fun _ _ => False, fun _ => False, (· = m), False⟩
  | chores => ⟨fun _ _ => False, (· ∈ n.chores), fun _ => False, False⟩

variable {s : Station}

theorem Job.prepare_request (n : Node) (topic : String) (payload : Bytes) (qos : QoS)
    (correlation : Option String) (callback : String) :
    (request topic payload qos correlation callback).prepare n =
      if topic = "" then n else n.counted := rfl

theorem Job.prepare_reply (n : Node) (d : Delivery) (payload : Bytes) (isLast : Bool) :
    (reply d payload isLast).prepare n =
      d.replyTopic.elim n fun topic => n.advanced topic isLast := rfl

/-- What the bookkeeping of a job leaves as it is. -/
theorem Job.prepare_keeps (n : Node) (job : Job) :
    (job.prepare n).config = n.config ∧ (job.prepare n).line = n.line ∧
      (job.prepare n).subscriptions = n.subscriptions ∧ (job.prepare n).finished = n.finished ∧
      (job.prepare n).invoked = n.invoked := by
  cases job with
  | request topic =>
    rw [prepare_request]
    split <;> exact ⟨rfl, rfl, rfl, rfl, rfl⟩
  | reply d =>
    rw [prepare_reply]
    cases d.replyTopic <;> exact ⟨rfl, rfl, rfl, rfl, rfl⟩
  | _ => exact ⟨rfl, rfl, rfl, rfl, rfl⟩

theorem Job.nextRequest_le (n : Node) (job : Job) :
    n.nextRequest ≤ (job.prepare n).nextRequest := by
  cases job with
  | request topic =>
    rw [prepare_request]
    split
    · exact Nat.le_refl _
    · exact Nat.le_succ _
  | reply d =>
    rw [prepare_reply]
    cases d.replyTopic <;> exact Nat.le_refl _
  | _ => exact Nat.le_refl _

theorem Job.chores_prepare (n : Node) {job : Job} (other : job ≠ .chores) :
    (job.prepare n).chores = n.chores := by
  cases job with
  | request asked =>
    rw [prepare_request]
    split <;> rfl
  | reply d =>
    rw [prepare_reply]
    cases d.replyTopic <;> rfl
  | chores => exact absurd rfl other
  | _ => rfl

theorem Job.mem_chores_of_prepare {n : Node} {job : Job} {topic : String}
    (there : topic ∈ (job.prepare n).chores) : topic ∈ n.chores := by
  by_cases chores : job = .chores
  · subst chores
    cases there
  · rw [chores_prepare n chores] at there
    exact there

/-- Only an answer on a topic takes a number of it. -/
theorem Job.replySequences_prepare {n : Node} {job : Job} {topic : String}
    (other : ∀ d payload isLast, job = .reply d payload isLast → d.replyTopic ≠ some topic) :
    (job.prepare n).replySequences.get? topic = n.replySequences.get? topic := by
  cases job with
  | request asked =>
    rw [prepare_request]
    split <;> rfl
  | reply d payload isLast =>
    rw [prepare_reply]
    cases wanted : d.replyTopic with
    | none => rfl
    | some answered =>
      have apart : answered ≠ topic := fun same => other d payload isLast rfl (same ▸ wanted)
      show (advanced n answered isLast).replySequences.get? topic = _
      unfold advanced
      cases isLast with
      | true => exact (KeyMap.get?_erase ..).trans (if_neg apart)
      | false => exact (KeyMap.get?_insert ..).trans (if_neg apart)
  | _ => rfl

/-- Callbacks join by a subscription, or by a request with its number. -/
theorem Job.joins_cases {n : Node} {job : Job} {topic : String} {c : Callback}
    (joins : (job.license n).joins topic c) :
    (∃ protocols qos, job = .call (.subscribe topic c protocols qos)) ∨
      ∃ asked payload qos correlation name,
        job = .request asked payload qos correlation name ∧ asked ≠ "" ∧
          topic = replyTopic asked n.id n.nextRequest ∧ c = ⟨name, some n.nextRequest⟩ := by
  cases job with
  | call call =>
    cases call with
    | subscribe t callback protocols qos =>
      obtain ⟨rfl, rfl⟩ := joins
      exact .inl ⟨protocols, qos, rfl⟩
    | _ => exact joins.elim
  | request asked payload qos correlation name =>
    obtain ⟨named, rfl, rfl⟩ := joins
    exact .inr ⟨asked, payload, qos, correlation, name, rfl, named, rfl, rfl⟩
  | _ => exact joins.elim

/-- Questions, answers and other messages are published. -/
theorem Job.posts_cases {n : Node} {job : Job} {m : Message} (posts : (job.license n).posts m) :
    (∃ asked payload qos correlation name,
      job = .request asked payload qos correlation name ∧ asked ≠ "" ∧
        m = question asked payload qos (replyTopic asked n.id n.nextRequest) correlation) ∨
    (∃ d payload isLast topic, job = .reply d payload isLast ∧ d.replyTopic = some topic ∧
      m = n.answer d payload isLast topic) ∨
    job = .post m := by
  cases job with
  | call call => cases call <;> exact posts.elim
  | request asked payload qos correlation name =>
    exact .inl ⟨asked, payload, qos, correlation, name, rfl, posts.1, posts.2⟩
  | reply d payload isLast =>
    obtain ⟨topic, wanted, is⟩ := posts
    exact .inr (.inl ⟨d, payload, isLast, topic, rfl, wanted, is⟩)
  | post m' =>
    obtain rfl : m = m' := posts
    exact .inr (.inr rfl)
  | chores => exact posts.elim

theorem course_call (steady : s.Steady) (c : Call) :
    Station.Course (c.license s.node) s (after c.act s) := by
  cases c with
  | connect => exact course_connect steady fun vacant => vacant
  | subscribe topic callback protocols qos =>
    exact course_subscribe (L := (Call.subscribe topic callback protocols qos).license s.node) steady
      ⟨rfl, rfl⟩ rfl protocols qos
  | unsubscribe topic =>
    exact course_unsubscribe (L := (Call.unsubscribe topic).license s.node) steady rfl
  | disconnect => exact course_disconnect steady trivial
  | abort => exact course_abort trivial

/-- What a request comes to: the subscription of the answers, and the question. -/
theorem request_run {topic : String} (named : topic ≠ "") (payload : Bytes) (qos : QoS)
    (correlation : Option String) (callback : String) :
    request topic payload qos correlation callback s =
      (subscribeWith (replyTopic topic s.node.id s.node.nextRequest)
          ⟨callback, some s.node.nextRequest⟩ .broker qos false >>= fun _ =>
        Station.ask (replyTopic topic s.node.id s.node.nextRequest)
          (question topic payload qos (replyTopic topic s.node.id s.node.nextRequest) correlation))
        { s with node := s.node.counted } := by
  have takes : takeRequest s = .ok s.node.nextRequest { s with node := s.node.counted } := rfl
  unfold request
  rw [bind_ok (checkTopic_ok named), bind_ok takes, bind_ok (node_eq _)]
  rfl

theorem request_empty (payload : Bytes) (qos : QoS) (correlation : Option String)
    (callback : String) :
    request "" payload qos correlation callback s = .error (.invalidArgument "empty topic") s :=
  bind_error checkTopic_empty

theorem course_request (steady : s.Steady) (topic : String) (payload : Bytes) (qos : QoS)
    (correlation : Option String) (callback : String) :
    let job := Job.request topic payload qos correlation callback
    Station.Course (job.license s.node) { s with node := job.prepare s.node } (after job.act s) := by
  intro job
  by_cases named : topic = ""
  · subst named
    rw [show after job.act s = s from after_error (request_empty ..), Job.prepare_request, if_pos rfl]
    exact .refl s
  · rw [show after job.act s = _ from after_congr (request_run named payload qos correlation callback)]
    rw [Job.prepare_request, if_neg named]
    refine course_bind (course_subscribeWith (L := job.license s.node)
      (s := { s with node := s.node.counted }) steady ⟨named, rfl, rfl⟩ rfl .broker qos false)
      fun _ t _ so_far => so_far.trans ?_
    exact course_ask (L := job.license s.node) (so_far.steady steady) ⟨named, rfl⟩ rfl

theorem reply_run {d : Delivery} {topic : String} (wanted : d.replyTopic = some topic)
    (payload : Bytes) (isLast : Bool) :
    reply d payload isLast s =
      Act.post (s.node.answer d payload isLast topic)
        { s with node := s.node.advanced topic isLast } := by
  unfold reply
  rw [wanted]
  rfl

theorem reply_unwanted {d : Delivery} (unwanted : d.replyTopic = none) (payload : Bytes)
    (isLast : Bool) :
    reply d payload isLast s =
      .error (.invalidArgument "message does not expect a reply") s := by
  unfold reply
  rw [unwanted]
  rfl

theorem course_reply (steady : s.Steady) (d : Delivery) (payload : Bytes) (isLast : Bool) :
    let job := Job.reply d payload isLast
    Station.Course (job.license s.node) { s with node := job.prepare s.node } (after job.act s) := by
  intro job
  have prepared := Job.prepare_reply s.node d payload isLast
  cases wanted : d.replyTopic with
  | none =>
    rw [show after job.act s = s from after_error (reply_unwanted wanted payload isLast), prepared,
      wanted]
    exact .refl s
  | some topic =>
    rw [show after job.act s = _ from after_congr (reply_run wanted payload isLast), prepared, wanted]
    exact course_post (L := job.license s.node) (s := { s with node := s.node.advanced topic isLast })
      steady (.inr ⟨topic, wanted, rfl⟩)

/-- **A job is a course of moves** within its license, after its bookkeeping. -/
theorem course_job (steady : s.Steady) (job : Job) :
    Station.Course (job.license s.node) { s with node := job.prepare s.node } (after job.act s) := by
  cases job with
  | call c => exact course_call steady c
  | request topic payload qos correlation callback =>
    exact course_request steady topic payload qos correlation callback
  | reply d payload isLast => exact course_reply steady d payload isLast
  | post m => exact course_post (L := (Job.post m).license s.node) steady (.inr rfl)
  | chores =>
    exact course_doChores (L := Job.chores.license s.node) (s := { s with
      node := { s.node with chores := [] } }) s.node.chores steady fun _ listed => listed

end Node

end TopicMesh
