import TopicMesh.Proofs.Mesh.Turns
import TopicMesh.Proofs.Node.Asking

/-!
# Exchanges: a request and its answers

An **exchange** is a request of one node and the series of answers of another.  Any
number of them may be under way in a mesh; what follows looks at one of them, and says of
every other turn only that it leaves this exchange alone (`Own`, `Quiet`, `Remains`,
`Answered`).  What is said on the topic for answers is then either an answer of the
exchange or nothing (`speech_cases`).

Before the request nobody has heard of that topic (`Fresh`), since only the request gives
its number.
-/

namespace TopicMesh.Mesh

open Node Act

/-- **A request, and who answers it.** -/
structure Exchange where
  asker : String
  answerer : String
  /-- The number of the request. -/
  number : Nat
  topic : String
  payload : Bytes
  qos : QoS
  correlation : Option String
  callback : String

/-- The answer that a turn gives on a topic: its payload, and whether it is the last one. -/
def Turn.answer? (topic : String) : Turn → Option (Bytes × Bool)
  | work _ (.reply d payload isLast) =>
    if d.replyTopic = some topic then some (payload, isLast) else none
  | _ => none

theorem answer?_eq_some {turn : Turn} {topic : String} {a : Bytes × Bool}
    (given : turn.answer? topic = some a) :
    ∃ id d, turn = .work id (.reply d a.1 a.2) ∧ d.replyTopic = some topic := by
  unfold Turn.answer? at given
  split at given
  · next id d payload isLast =>
    split at given
    · next wanted =>
      cases given
      exact ⟨id, d, rfl, wanted⟩
    · cases given
  · cases given

theorem replyTopic_ne_of_answer? {id topic : String} {job : Job}
    (none_given : (Turn.work id job).answer? topic = none) :
    ∀ d payload isLast, job = .reply d payload isLast → d.replyTopic ≠ some topic := by
  rintro d payload isLast rfl wanted
  have given : (Turn.work id (.reply d payload isLast)).answer? topic = some (payload, isLast) :=
    if_pos wanted
  rw [given] at none_given
  cases none_given

/-- Whether the last answer of a series has been given. -/
def isOver (series : List (Bytes × Bool)) : Bool :=
  series.any Prod.snd

/-- The series after a turn: nothing counts after its last answer. -/
def extend (topic : String) (series : List (Bytes × Bool)) (turn : Turn) : List (Bytes × Bool) :=
  if isOver series then series else series ++ (turn.answer? topic).toList

/-- Whether only the end of a series may be the last answer. -/
def Proper (series : List (Bytes × Bool)) : Prop :=
  ∀ a ∈ series.dropLast, a.2 = false

namespace Exchange

variable {x : Exchange}

/-- The topic for the answers. -/
def answers (x : Exchange) : String :=
  replyTopic x.topic x.asker x.number

/-- The job of the asker. -/
def job (x : Exchange) : Job :=
  .request x.topic x.payload x.qos x.correlation x.callback

/-- The turn in which the request is made. -/
def ask (x : Exchange) : Turn :=
  .work x.asker x.job

/-- The answers that some turns give, up to the last one. -/
def series (x : Exchange) (turns : List Turn) : List (Bytes × Bool) :=
  turns.foldl (extend x.answers) []

/-- What the callback is to be handed for an answer of the series. -/
def delivery (x : Exchange) (i : Nat) (a : Bytes × Bool) : Delivery where
  topic := x.answers
  payload := a.1
  protocol := .broker
  qos := x.qos
  correlation := x.correlation
  replyTopic := some x.answers
  sequence := .ofNat i
  isLast := a.2
  frame := none

/-- The calls of the callback that a series comes to. -/
def calls (x : Exchange) (series : List (Bytes × Bool)) : List (String × Delivery) :=
  series.mapIdx fun i a => (x.callback, x.delivery i a)

/-- The record of the answers at the asker. -/
def record (x : Exchange) : Subscription Callback :=
  answersRecord x.callback x.number x.qos

/-! ## What leaves an exchange alone -/

/-- Whether the topic for answers is not one for announcements. -/
structure Plain (x : Exchange) (c : DiscoveryConfig) : Prop where
  not_discovery : c.isDiscoveryTopic x.answers = false
  not_own : c.nodeTopic ≠ x.answers

/-- Whether a turn leaves the asker's subscription of the answers alone. -/
def Own (x : Exchange) : Turn → Prop
  | .work who (.call (.subscribe topic callback _ _)) =>
    who = x.asker → callback.request = none ∧ topic ≠ x.answers
  | .work who (.call (.unsubscribe topic)) => who = x.asker → topic ≠ x.answers
  | .weather outage => ∀ id call, (outage id).line call = none
  | _ => True

/-- Whether a turn keeps the asker and the answerer connected. -/
def Remains (x : Exchange) : Turn → Prop
  | .work who (.call .disconnect) => who ≠ x.asker ∧ who ≠ x.answerer
  | .work who (.call .abort) => who ≠ x.asker ∧ who ≠ x.answerer
  | _ => True

/-- Whether a turn publishes nothing on the topic for answers, answers apart, and asks
nobody else to answer there. -/
def Quiet (x : Exchange) (m : Mesh) : Turn → Prop
  | .work who (.request topic _ _ _ _) =>
    topic ≠ x.answers ∧ (who ≠ x.asker →
      ∀ n, m.nodes.get? who = some n → replyTopic topic who n.nextRequest ≠ x.answers)
  | .work _ (.post message) =>
    message.topic ≠ x.answers ∧ (Delivery.ofMessage message).replyTopic ≠ some x.answers
  | _ => True

/-- Whether only the answerer answers, and what a callback of it has been handed. -/
def Answered (x : Exchange) (m : Mesh) : Turn → Prop
  | .work who (.reply d _ _) =>
    d.replyTopic = some x.answers →
      who = x.answerer ∧ ∀ n, m.nodes.get? who = some n → ∃ name, (name, d) ∈ n.invoked
  | _ => True

/-- Whether some turns before the request leave the exchange alone. -/
def Before (x : Exchange) : Mesh → List Turn → Prop
  | _, [] => True
  | m, turn :: rest =>
    (x.Own turn ∧ x.Quiet m turn ∧ turn.answer? x.answers = none) ∧ x.Before (turn.result m) rest

/-- Whether some turns after the request leave the exchange alone: until the last answer
only the answerer speaks on the topic for answers, and then anybody may. -/
def After (x : Exchange) : Mesh → List (Bytes × Bool) → List Turn → Prop
  | _, _, [] => True
  | m, series, turn :: rest =>
    (x.Own turn ∧ x.Remains turn ∧
      (isOver series = false → x.Quiet m turn ∧ x.Answered m turn)) ∧
    x.After (turn.result m) (extend x.answers series turn) rest

theorem Plain.ne_filter {c : DiscoveryConfig} (plain : x.Plain c) : x.answers ≠ c.filter := by
  intro same
  have discovery := DiscoveryConfig.isDiscoveryTopic_filter (c := c)
  rw [← same, plain.not_discovery] at discovery
  cases discovery

/-! ## Series -/

section Series

variable {series : List (Bytes × Bool)}

theorem proper_nil : Proper [] := by
  intro a there
  cases there

theorem proper_extend (proper : Proper series) (topic : String)
    (turn : Turn) : Proper (extend topic series turn) := by
  unfold extend
  split
  · exact proper
  · next going =>
    cases turn.answer? topic with
    | none => exact (List.append_nil series).symm ▸ proper
    | some a =>
      intro b there
      rw [Option.toList_some, List.dropLast_concat] at there
      cases last : b.2 with
      | false => rfl
      | true => exact absurd (List.any_eq_true.2 ⟨b, there, last⟩) going

/-- The next call of a series: it is the last one if its answer is. -/
theorem calls_split (proper : Proper series)
    {front back : List (String × Delivery)} {name : String} {d : Delivery}
    (split : x.calls series = front ++ (name, d) :: back) :
    name = x.callback ∧ d.isLast = (isOver series && back.isEmpty) := by
  obtain ⟨earlier, later, rfl, -, rest⟩ := List.mapIdx_eq_append_iff.1 split
  obtain ⟨a, others, rfl, here, rfl⟩ := List.mapIdx_eq_cons_iff.1 rest
  cases here
  refine ⟨rfl, ?_⟩
  show a.2 = _
  cases others with
  | nil =>
    have none_earlier : earlier.any Prod.snd = false := by
      refine List.any_eq_false.2 fun b there => ?_
      have goes_on := proper b (by rw [List.dropLast_concat]; exact there)
      rw [goes_on]
      exact Bool.false_ne_true
    unfold isOver
    rw [List.any_append, none_earlier]
    simp
  | cons b others =>
    have goes_on : a.2 = false := by
      refine proper a ?_
      rw [List.dropLast_append_of_ne_nil (List.cons_ne_nil a (b :: others))]
      exact List.mem_append_right _ List.mem_cons_self
    rw [goes_on]
    simp

theorem calls_extend (series : List (Bytes × Bool)) (a : Bytes × Bool) :
    x.calls (series ++ [a]) = x.calls series ++ [(x.callback, x.delivery series.length a)] :=
  List.mapIdx_concat

/-- The calls that a series comes to are numbered from 0. -/
theorem sequences_calls (short : series.length ≤ UInt32.size) :
    (x.calls series).map (fun e => e.2.sequence.toNat) = List.range series.length := by
  refine List.ext_getElem (by simp [calls]) fun i here _ => ?_
  have inside : i < series.length := by simpa [calls] using here
  have number : (UInt32.ofNat i).toNat = i :=
    UInt32.toNat_ofNat_of_lt' (Nat.lt_of_lt_of_le inside short)
  simpa [calls, delivery] using number

/-- Only the end of the calls may be the last answer. -/
theorem last_calls (proper : Proper series) {e : String × Delivery}
    (there : e ∈ (x.calls series).dropLast) : e.2.isLast = false := by
  rcases List.eq_nil_or_concat series with rfl | ⟨front, a, rfl⟩
  · cases there
  · rw [List.concat_eq_append] at there proper
    rw [calls_extend, List.dropLast_concat] at there
    obtain ⟨i, bound, rfl⟩ := List.mem_mapIdx.1 there
    refine proper front[i] ?_
    rw [List.dropLast_concat]
    exact List.getElem_mem bound

end Series

/-! ## What is said -/

/-- What a turn that leaves an exchange alone publishes: an answer of the exchange, or
nothing that concerns it.  The number of the request is given once. -/
theorem speech_cases {m : Mesh} {id : String} {n : Node} {job : Job} {message : Message}
    (quiet : x.Quiet m (.work id job)) (found : m.nodes.get? id = some n) (named : n.id = id)
    (plain : x.Plain n.config.discovery)
    (apart : id = x.asker →
      (job.prepare n).nextRequest ≤ x.number ∨ x.number < n.nextRequest)
    (spoken : Station.Speech (job.license n) n message) :
    (∃ d payload isLast, job = .reply d payload isLast ∧ d.replyTopic = some x.answers ∧
      message = n.answer d payload isLast x.answers) ∨
    message.topic ≠ x.answers ∧ (Delivery.ofMessage message).replyTopic ≠ some x.answers := by
  rcases spoken with ⟨topic, silent⟩ | posts
  · refine .inr ⟨topic ▸ plain.not_own, ?_⟩
    unfold Delivery.ofMessage
    rw [silent]
    exact nofun
  · rcases Job.posts_cases posts with
      ⟨asked, payload, qos, correlation, name, rfl, nonempty, rfl⟩ |
        ⟨d, payload, isLast, topic, rfl, wanted, rfl⟩ | rfl
    · refine .inr ⟨quiet.1, fun same => ?_⟩
      have same : replyTopic asked n.id n.nextRequest = x.answers := Option.some.inj same
      by_cases own : id = x.asker
      · -- a request of the asker has another number
        have number : n.nextRequest = x.number := replyTopic_number same
        have next := apart own
        rw [Job.prepare_request, if_neg nonempty] at next
        have next : n.nextRequest + 1 ≤ x.number ∨ x.number < n.nextRequest := next
        omega
      · exact quiet.2 own n found (named ▸ same)
    · by_cases here : topic = x.answers
      · exact .inl ⟨d, payload, isLast, rfl, here ▸ wanted, by rw [here]⟩
      · exact .inr ⟨here, fun same => here (Option.some.inj same)⟩
    · exact .inr quiet

/-! ## What the asker does -/

section Asker

variable {n : Node} {job : Job}

/-- No callback joins the answers, and none is of the same request. -/
theorem joins_elsewhere (own : x.Own (.work x.asker job))
    (apart : (job.prepare n).nextRequest ≤ x.number ∨ x.number < n.nextRequest)
    {topic : String} {c : Callback} (joins : (job.license n).joins topic c) :
    topic ≠ x.answers ∧ c.request ≠ some x.number := by
  rcases Job.joins_cases joins with
    ⟨protocols, qos, rfl⟩ | ⟨asked, payload, qos, correlation, name, rfl, nonempty, rfl, rfl⟩
  · obtain ⟨unnumbered, other⟩ := own rfl
    exact ⟨other, fun same => nomatch unnumbered.symm.trans same⟩
  · have other : n.nextRequest ≠ x.number := by
      rw [Job.prepare_request, if_neg nonempty] at apart
      have apart : n.nextRequest + 1 ≤ x.number ∨ x.number < n.nextRequest := apart
      omega
    exact ⟨fun same => other (replyTopic_number same), fun same => other (Option.some.inj same)⟩

/-- Only chores end the subscription of the answers. -/
theorem ends_cases (own : x.Own (.work x.asker job)) (passed : x.number < n.nextRequest)
    (ends : (job.license n).ends x.answers) : job = .chores ∧ x.answers ∈ n.chores := by
  cases job with
  | call c =>
    cases c with
    | subscribe topic => exact absurd ends.symm (own rfl).2
    | unsubscribe topic => exact absurd ends.symm (own rfl)
    | _ => exact ends.elim
  | request topic => exact absurd (replyTopic_number ends) (Nat.ne_of_lt passed)
  | reply => exact ends.elim
  | post => exact ends.elim
  | chores => exact ⟨rfl, ends⟩

end Asker

/-- A connected node that remains does not come or go. -/
theorem Remains.stays {id : String} {n : Node} {job : Job} (remains : x.Remains (.work id job))
    (here : id = x.asker ∨ id = x.answerer) (attached : n.line.inbox.isSome = true) :
    ¬(job.license n).roams := by
  cases job with
  | call c =>
    cases c with
    | connect =>
      intro vacant
      rw [show n.line.inbox = none from vacant] at attached
      cases attached
    | disconnect => exact fun _ => here.elim remains.1 remains.2
    | abort => exact fun _ => here.elim remains.1 remains.2
    | _ => exact not_false
  | _ => exact not_false

/-! ## Before the request -/

/-- Where the callback of the exchange may be. -/
def Sole (x : Exchange) (n : Node) : Prop :=
  n.HasOnly fun topic c => c.request = some x.number → topic = x.answers

/-- Whether a node has nothing to do with the exchange yet. -/
structure Unasked (x : Exchange) (n : Node) : Prop where
  free : n.subscriptions.get? x.answers = none
  sole : x.Sole n
  open_ : x.number ∉ n.finished
  unmarked : x.answers ∉ n.chores

/-- Whether nobody has heard of the topic for answers. -/
structure Unheard (x : Exchange) (m : Mesh) : Prop where
  unborne : m.Bears fun d => d.topic ≠ x.answers ∧ d.replyTopic ≠ some x.answers
  unanswered : ∀ r, m.nodes.get? x.answerer = some r → r.replySequences.get? x.answers = none

/-- Whether nothing is known of an exchange until the asker gives its number. -/
structure Fresh (x : Exchange) (m : Mesh) : Prop where
  orderly : m.Orderly
  plain : ∀ id n, m.nodes.get? id = some n → x.Plain n.config.discovery
  unasked : ∀ n, m.nodes.get? x.asker = some n → n.nextRequest ≤ x.number → x.Unasked n
  unheard : ∀ n, m.nodes.get? x.asker = some n → n.nextRequest ≤ x.number → x.Unheard m

theorem fresh_new {configs : List NodeConfig} (now : Int64) (firstPort : UInt16)
    (plain : ∀ c ∈ configs, x.Plain c.discovery) : x.Fresh (new configs now firstPort) := by
  refine ⟨orderly_new configs now firstPort, fun id n found => ?_, fun n found _ => ?_,
    fun _ _ _ => ⟨bears_new configs now firstPort, fun r answering => ?_⟩⟩
  · obtain ⟨c, listed, -, rfl⟩ := node_of_new found
    exact plain c listed
  · obtain ⟨c, -, -, rfl⟩ := node_of_new found
    exact ⟨rfl, nofun, nofun, nofun⟩
  · obtain ⟨c, -, -, rfl⟩ := node_of_new answering
    rfl

section Turns

variable {m : Mesh}

/-- No frame that waits brings an answer yet. -/
theorem Unheard.silent (unheard : x.Unheard m) {inbox : Nat} {frame : ServerFrame}
    (waits : frame ∈ m.hub.framesIn inbox) : frame.deliveryOn? x.answers = none := by
  refine Option.eq_none_iff_forall_ne_some.2 fun d brings => ?_
  obtain ⟨message, rfl, topic, -⟩ := ServerFrame.deliveryOn?_eq_some brings
  have other := (unheard.unborne.carries.frames inbox message waits).1
  exact other ((Delivery.topic_ofMessage message).trans topic)

theorem plain_turn (orderly : m.Orderly)
    (plain : ∀ id n, m.nodes.get? id = some n → x.Plain n.config.discovery) (turn : Turn) :
    ∀ id n, (turn.result m).nodes.get? id = some n → x.Plain n.config.discovery := by
  intro id n' found
  obtain ⟨n, there, config⟩ := orderly.config_turn found
  rw [config]
  exact plain id n there

/-- A job of the asker, as long as its number has not come. -/
theorem unasked_doing (orderly : m.Orderly) {n : Node} {job : Job}
    (working : m.nodes.get? x.asker = some n) (own : x.Own (.work x.asker job))
    (early : (m.doing x.asker n job).node.nextRequest ≤ x.number) (unasked : x.Unasked n) :
    x.Unasked (m.doing x.asker n job).node := by
  obtain ⟨-, course, -⟩ := orderly.working working job
  obtain ⟨-, -, subscriptions, finished, -⟩ := job.prepare_keeps n
  obtain ⟨finished', chores', -, next⟩ := course.notes
  rw [next] at early
  have elsewhere : ∀ topic c, (job.license n).joins topic c →
      topic ≠ x.answers ∧ c.request ≠ some x.number :=
    fun topic c joins => joins_elsewhere own (.inl early) joins
  refine ⟨course.free (fun c joins => (elsewhere _ c joins).1 rfl) ?_,
    course.hasOnly (fun topic c joins same => absurd same (elsewhere topic c joins).2) ?_, ?_, ?_⟩
  · exact (congrArg (fun known => known.get? x.answers) subscriptions).trans unasked.free
  · intro topic record known
    exact unasked.sole topic record (subscriptions ▸ known)
  · rw [finished'.trans finished]
    exact unasked.open_
  · rw [chores']
    exact fun there => unasked.unmarked (Job.mem_chores_of_prepare there)

/-- Jobs that leave the exchange alone spread nothing of it. -/
theorem unheard_work (fresh : x.Fresh m) {id : String} {worker : Node} {job : Job}
    (working : m.nodes.get? id = some worker) (quiet : x.Quiet m (.work id job))
    (none_yet : (Turn.work id job).answer? x.answers = none)
    (early : id = x.asker → (job.prepare worker).nextRequest ≤ x.number) (unheard : x.Unheard m) :
    x.Unheard ((Turn.work id job).result m) := by
  have no_answer := replyTopic_ne_of_answer? none_yet
  constructor
  · refine bears_work fresh.orderly unheard.unborne working fun message spoken => ?_
    rcases speech_cases quiet working (fresh.orderly.named id worker working)
      (fresh.plain id worker working) (fun same => .inl (early same)) spoken with
      ⟨d, payload, isLast, is, wanted, -⟩ | ⟨topic, reply⟩
    · exact absurd wanted (no_answer d payload isLast is)
    · exact ⟨(Delivery.topic_ofMessage message).symm ▸ topic, reply⟩
  · intro r answering
    rw [get?_work working] at answering
    split at answering
    · next same =>
      cases answering
      obtain ⟨-, course, -⟩ := fresh.orderly.working working job
      have silent := unheard.unanswered worker (same ▸ working)
      exact course.unnumbered ((Job.replySequences_prepare no_answer).trans silent)
    · exact unheard.unanswered r answering

theorem fresh_work (fresh : x.Fresh m) {id : String} {job : Job} (own : x.Own (.work id job))
    (quiet : x.Quiet m (.work id job)) (none_yet : (Turn.work id job).answer? x.answers = none) :
    x.Fresh ((Turn.work id job).result m) := by
  cases working : m.nodes.get? id with
  | none =>
    rw [work_of_none working]
    exact fresh
  | some worker =>
    have orderly := fresh.orderly
    -- the asker's number only grows, so an asker that is early now was so before
    have next : (m.doing id worker job).node.nextRequest = (job.prepare worker).nextRequest :=
      (orderly.working working job).2.1.notes.2.2.2
    have grows := job.nextRequest_le worker
    refine ⟨orderly_work orderly id job, plain_turn orderly fresh.plain _,
      fun n' found early => ?_, fun n' found early => ?_⟩
    · rw [get?_work working] at found
      split at found
      · next same =>
        subst same
        cases found
        exact unasked_doing orderly working own early
          (fresh.unasked worker working (Nat.le_trans grows (next ▸ early)))
      · exact fresh.unasked n' found early
    · rw [get?_work working] at found
      split at found
      · next same =>
        subst same
        cases found
        rw [next] at early
        exact unheard_work fresh working quiet none_yet (fun _ => early)
          (fresh.unheard worker working (Nat.le_trans grows early))
      · next other =>
        exact unheard_work fresh working quiet none_yet (fun same => absurd same other)
          (fresh.unheard n' found early)

theorem fresh_hand (fresh : x.Fresh m) {inbox : Nat} {hub : Hub} {client : String}
    {frame : ServerFrame} (popped : m.hub.pop? inbox = some (hub, client, frame)) :
    x.Fresh (m.hand (hub, client, frame)) := by
  -- the asker and its number as they were
  have was : ∀ n', (m.hand (hub, client, frame)).nodes.get? x.asker = some n' →
      n'.nextRequest ≤ x.number → ∃ n, m.nodes.get? x.asker = some n ∧ n.nextRequest ≤ x.number ∧
        n' = if client = x.asker then n.onFrame frame else n := by
    intro n' found early
    obtain ⟨n, there, rfl⟩ := node_of_hand found
    refine ⟨n, there, ?_, rfl⟩
    split at early
    · rw [(n.onFrame_numbers frame).1] at early
      exact early
    · exact early
  refine ⟨orderly_hand fresh.orderly popped, ?_, fun n' found early => ?_,
    fun n' found early => ?_⟩
  · have plain := plain_turn fresh.orderly fresh.plain (.hand inbox)
    rw [hand_of_pop? popped] at plain
    exact plain
  · obtain ⟨n, there, bound, rfl⟩ := was n' found early
    have unasked := fresh.unasked n there bound
    have waits : frame ∈ m.hub.framesIn inbox := by
      rw [Hub.framesIn_of_pop? popped inbox, if_pos rfl]
      exact List.mem_cons_self
    have silent := (fresh.unheard n there bound).silent waits
    split
    · obtain ⟨-, -, subscriptions, -⟩ := n.onFrame_keeps frame
      obtain ⟨-, finished, chores⟩ := onFrame_elsewhere silent unasked.sole
      refine ⟨?_, fun topic record known => ?_, fun there => unasked.open_ (finished.1 there),
        fun there => unasked.unmarked (chores.1 there)⟩
      · rw [subscriptions]
        exact unasked.free
      · exact unasked.sole topic record (subscriptions ▸ known)
    · exact unasked
  · obtain ⟨n, there, early, -⟩ := was n' found early
    have unheard := fresh.unheard n there early
    refine ⟨bears_hand unheard.unborne popped, fun r answering => ?_⟩
    obtain ⟨r, there, rfl⟩ := node_of_hand answering
    have silent := unheard.unanswered r there
    split
    · rw [(r.onFrame_numbers frame).2]
      exact silent
    · exact silent

theorem fresh_turn (fresh : x.Fresh m) {turn : Turn} (own : x.Own turn) (quiet : x.Quiet m turn)
    (none_yet : turn.answer? x.answers = none) : x.Fresh (turn.result m) := by
  cases turn with
  | work id job => exact fresh_work fresh own quiet none_yet
  | hand inbox =>
    rcases hand_cases m inbox with same | ⟨hub, client, frame, popped, result⟩
    · rw [same]
      exact fresh
    · rw [result]
      exact fresh_hand fresh popped
  | weather outage =>
    exact ⟨orderly_turn fresh.orderly own, fresh.plain, fresh.unasked, fun n found early =>
      ⟨(fresh.unheard n found early).unborne.weather outage,
        (fresh.unheard n found early).unanswered⟩⟩

/-- **Nothing is known of an exchange before its request.** -/
theorem fresh_play {turns : List Turn} (fresh : x.Fresh m) (before : x.Before m turns) :
    x.Fresh (play m turns) := by
  induction turns generalizing m with
  | nil => exact fresh
  | cons turn rest ih =>
    obtain ⟨⟨own, quiet, none_yet⟩, later⟩ := before
    exact ih (fresh_turn fresh own quiet none_yet) later

end Turns

end Exchange

end TopicMesh.Mesh
