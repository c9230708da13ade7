import TopicMesh.Proofs.Broker.Naive
import TopicMesh.Proofs.Retained.Written

/-!
# What a broker keeps

Of a run of calls only the **publications** matter to what is kept: the messages that
were published, and the wills of clients that went without a farewell.  They are read
off the calls (`publications`); who has left which will is all that has to be remembered
on the way (`Call.willsAfter`).

A broker then **keeps** (`Keeps`), for every topic, the last publication on it that was
to be retained, unless its payload is empty.  A filter lists what it matches of that, in
the order of the bytes of the topics, and a subscriber is sent just this list.  So it is
after every run of calls (`keeps_run`).
-/

namespace TopicMesh

namespace Broker

/-- A message that was published, and when. -/
structure Publication where
  time : Int64
  message : Message
deriving DecidableEq, Repr

namespace Publication

/-- Whether a message is the last word on a topic until the next one. -/
def retains (topic : String) (p : Publication) : Bool :=
  p.message.retain && p.message.topic = topic

/-- What is kept of a message that is to be retained: nothing if it has no payload.  It
is marked, and one without a time has the time when it was published. -/
def kept? (p : Publication) : Option Message :=
  if p.message.payload.isEmpty then none
  else some { p.message with
    retain := true
    timestamp := if p.message.timestamp = 0 then p.time else p.message.timestamp }

/-- The byte store after a message was published. -/
def write (s : ByteStore) (p : Publication) : ByteStore :=
  if p.message.retain then s.store p.time (p.message.stamp p.time) else s

end Publication

/-- The last publication on a topic that was to be retained. -/
def lastRetained (topic : String) (history : List Publication) : Option Publication :=
  (history.filter (Publication.retains topic)).getLast?

/-- What is kept on a topic after some publications. -/
def keptAfter (history : List Publication) (topic : String) : Option Message :=
  (lastRetained topic history).bind Publication.kept?

/-- The byte store that some publications fill. -/
def writtenAfter (history : List Publication) : ByteStore :=
  history.foldl Publication.write .empty

namespace Call

variable {ι : Type}

/-- The wills that the registered clients have left, after a call. -/
def willsAfter (wills : String → Option Will) : Call ι → String → Option Will
  | .register client r => Function.update wills client r.will
  | .remove client => Function.update wills client none
  | .cleanup _ client _ => Function.update wills client none
  | .subscribe .. => wills
  | .unsubscribe .. => wills
  | .publish .. => wills

/-- What a call publishes. -/
def publication? (wills : String → Option Will) : Call ι → Option Publication
  | .publish now m => some ⟨now, m⟩
  | .cleanup now client false => (wills client).map fun w => ⟨now, w.toMessage⟩
  | _ => none

end Call

variable {ι : Type}

/-- **What some calls publish**, oldest first, when certain wills have been left before. -/
def publications (wills : String → Option Will) : List (Call ι) → List Publication
  | [] => []
  | c :: rest => (c.publication? wills).toList ++ publications (c.willsAfter wills) rest

/-- **What a broker keeps after some publications.** -/
structure Keeps (b : Broker ι) (history : List Publication) : Prop where
  /-- On each topic just the last publication that was to be retained. -/
  stored : ∀ topic, b.retained.byTopic.get? topic = keptAfter history topic
  /-- A filter lists the messages whose topics it matches, and no others. -/
  listed : ∀ filter m, m ∈ b.retained.matching filter ↔
    Filter.topicMatches filter m.topic = true ∧ keptAfter history m.topic = some m
  /-- It lists each topic once, in the order of the bytes. -/
  ascending : ∀ filter, (b.retained.matching filter).Pairwise fun m m' =>
    Utf8.encode m.topic < Utf8.encode m'.topic
  /-- The list is what a registered client is sent that subscribes the filter. -/
  replayed : ∀ filter client qos r, b.clients.get? client = some r →
    Filter.isValid filter = true →
      (b.subscribe filter client qos).2 =
        (b.retained.matching filter).map fun m => ⟨r.inbox, .deliver m⟩
  /-- The list is also what is read back from bytes. -/
  readBack : ∀ filter, (writtenAfter history).matching filter = b.retained.matching filter

/-! ## One publication -/

theorem lastRetained_concat (topic : String) (history : List Publication) (p : Publication) :
    lastRetained topic (history ++ [p]) =
      if p.retains topic then some p else lastRetained topic history := by
  unfold lastRetained
  rw [List.filter_append, List.filter_singleton]
  cases p.retains topic with
  | true => exact List.getLast?_concat
  | false => exact congrArg List.getLast? (List.append_nil _)

theorem get?_store (r : Retained) (now : Int64) (m : Message) (topic : String) :
    (r.store now m).byTopic.get? topic =
      if m.topic = topic then if m.payload.isEmpty then none else some (Retained.kept now m)
      else r.byTopic.get? topic := by
  unfold Retained.store
  split
  · exact KeyMap.get?_erase ..
  · exact KeyMap.get?_insert ..

/-- A message that has been stamped is kept as it is, but for the mark. -/
theorem kept_stamp (p : Publication) :
    (if (p.message.stamp p.time).payload.isEmpty then none
      else some (Retained.kept p.time (p.message.stamp p.time))) = p.kept? := by
  unfold Publication.kept? Retained.kept Message.stamp
  by_cases untimed : p.message.timestamp = 0
  · by_cases epoch : p.time = 0 <;> simp [untimed, epoch]
  · simp [untimed]

theorem retained_publish (b : Broker ι) (now : Int64) (m : Message) :
    (b.publish now m).1.retained =
      if m.retain then b.retained.store now (m.stamp now) else b.retained := by
  unfold publish
  dsimp only
  rw [Hub.stamp_retain]

/-! ## A run -/

/-- What is remembered of the calls that led to a broker. -/
structure Recorded (b : Broker ι) (wills : String → Option Will) (history : List Publication) :
    Prop where
  wills : ∀ client, (b.clients.get? client).bind Registration.will = wills client
  stored : ∀ topic, b.retained.byTopic.get? topic = keptAfter history topic
  bytes : (writtenAfter history).Holds b.retained

variable {b : Broker ι} {wills : String → Option Will} {history : List Publication}

theorem recorded_empty : (empty : Broker ι).Recorded (fun _ => none) [] where
  wills _ := rfl
  stored _ := rfl
  bytes := ByteStore.holds_empty

theorem Recorded.publish (recorded : b.Recorded wills history) (now : Int64) (m : Message) :
    (b.publish now m).1.Recorded wills (history ++ [⟨now, m⟩]) where
  wills := recorded.wills
  stored topic := by
    rw [retained_publish, keptAfter, lastRetained_concat]
    unfold Publication.retains
    cases m.retain with
    | false => exact recorded.stored topic
    | true =>
      rw [if_pos rfl, get?_store, Hub.stamp_topic, Bool.true_and]
      by_cases here : m.topic = topic
      · rw [if_pos here, if_pos (decide_eq_true here)]
        exact kept_stamp ⟨now, m⟩
      · rw [if_neg here, if_neg fun found => here (of_decide_eq_true found)]
        exact recorded.stored topic
  bytes := by
    rw [retained_publish, writtenAfter, List.foldl_append]
    show (Publication.write (writtenAfter history) ⟨now, m⟩).Holds _
    unfold Publication.write
    split
    · exact recorded.bytes.store now _
    · exact recorded.bytes

/-- A call that publishes nothing may still change who has left which will. -/
theorem Recorded.unpublished (recorded : b.Recorded wills history) {b' : Broker ι}
    {wills' : String → Option Will} (kept : b'.retained = b.retained)
    (known : ∀ client, (b'.clients.get? client).bind Registration.will = wills' client) :
    b'.Recorded wills' (history ++ []) where
  wills := known
  stored topic := by rw [kept, List.append_nil, recorded.stored]
  bytes := by
    rw [kept, List.append_nil]
    exact recorded.bytes

/-- A client that is struck out leaves no will behind. -/
theorem Recorded.will_erase (recorded : b.Recorded wills history) (client other : String) :
    ((b.clients.erase client).get? other).bind Registration.will =
      Function.update wills client none other := by
  rw [KeyMap.get?_erase, Function.update_apply]
  by_cases same : client = other
  · rw [if_pos same, if_pos same.symm, Option.bind_none]
  · rw [if_neg same, if_neg (Ne.symm same), recorded.wills]

theorem Recorded.cleanup (recorded : b.Recorded wills history) (now : Int64) (client : String)
    (graceful : Bool) :
    (b.cleanup now client graceful).1.Recorded (Function.update wills client none)
      (history ++ ((.cleanup now client graceful : Call ι).publication? wills).toList) := by
  have leave : (b.cleanup now client true).1.Recorded (Function.update wills client none)
      (history ++ []) := recorded.unpublished rfl (recorded.will_erase client)
  cases graceful with
  | true => exact leave
  | false =>
    have will : (b.clients.get? client).bind Registration.will = wills client :=
      recorded.wills client
    rw [cleanup_ungraceful, will, Call.publication?]
    cases wills client with
    | none => exact leave
    | some w =>
      have told := leave.publish now w.toMessage
      rwa [List.append_nil] at told

theorem Recorded.perform (recorded : b.Recorded wills history) (c : Call ι) :
    (b.perform c).1.Recorded (c.willsAfter wills) (history ++ (c.publication? wills).toList) := by
  cases c with
  | publish now m => exact recorded.publish now m
  | cleanup now client graceful => exact recorded.cleanup now client graceful
  | register client r =>
    refine recorded.unpublished rfl fun other => ?_
    show ((b.clients.insert client r).get? other).bind _ = Function.update wills client r.will other
    rw [KeyMap.get?_insert, Function.update_apply]
    by_cases same : client = other
    · rw [if_pos same, if_pos same.symm, Option.bind_some]
    · rw [if_neg same, if_neg (Ne.symm same), recorded.wills]
  | remove client => exact recorded.unpublished rfl (recorded.will_erase client)
  | subscribe filter client qos =>
    refine recorded.unpublished (b.retained_subscribe filter client qos) fun other => ?_
    show ((b.subscribe filter client qos).1.clients.get? other).bind _ = _
    rw [clients_subscribe, recorded.wills]
    rfl
  | unsubscribe filter client => exact recorded.unpublished rfl recorded.wills

theorem Recorded.run (recorded : b.Recorded wills history) (calls : List (Call ι)) :
    ∃ left, (b.run calls).1.Recorded left (history ++ publications wills calls) := by
  induction calls generalizing b wills history with
  | nil => exact ⟨wills, (List.append_nil history).symm ▸ recorded⟩
  | cons c rest ih =>
    obtain ⟨left, after⟩ := ih (recorded.perform c)
    exact ⟨left, List.append_assoc .. ▸ after⟩

/-! ## What is listed -/

/-- What is kept on a topic is a message on that topic. -/
theorem topic_of_keptAfter {topic : String} {m : Message} (kept : keptAfter history topic = some m) :
    m.topic = topic := by
  obtain ⟨p, last, kept⟩ := Option.bind_eq_some_iff.1 kept
  have retains := (List.mem_filter.1 (List.mem_of_getLast? last)).2
  have here : p.message.topic = topic := of_decide_eq_true (Bool.and_eq_true_iff.1 retains).2
  unfold Publication.kept? at kept
  split at kept
  · cases kept
  · cases kept
    exact here

theorem Recorded.keeps (recorded : b.Recorded wills history) : b.Keeps history where
  stored := recorded.stored
  listed filter m := by
    unfold Retained.matching
    rw [KeyMap.mem_values_iff]
    constructor
    · rintro ⟨topic, found⟩
      rw [KeyMap.get?_filter, Option.filter_eq_some_iff, recorded.stored] at found
      obtain ⟨kept, covered⟩ := found
      obtain rfl := topic_of_keptAfter kept
      exact ⟨covered, kept⟩
    · rintro ⟨covered, kept⟩
      refine ⟨m.topic, ?_⟩
      rw [KeyMap.get?_filter, Option.filter_eq_some_iff, recorded.stored]
      exact ⟨kept, covered⟩
  ascending filter := by
    have order := (b.retained.byTopic.filter fun topic _ => Filter.topicMatches filter topic).ascending
    refine List.pairwise_map.2 (order.imp_of_mem fun {e e'} mem mem' less => ?_)
    have own : ∀ e ∈ b.retained.byTopic.entries, e.2.topic = e.1 := fun e there =>
      topic_of_keptAfter ((recorded.stored e.1).symm.trans (KeyMap.mem_entries_iff.1 there))
    rw [own e (List.mem_filter.1 mem).1, own e' (List.mem_filter.1 mem').1]
    exact Utf8.encode_lt (compareOfLessAndEq_eq_lt.1 less)
  replayed filter client qos r registered valid := by
    unfold subscribe postTo
    rw [if_pos valid]
    dsimp only
    rw [registered, ← List.map_eq_flatMap]
  readBack := recorded.bytes.matching

/-- **A broker keeps the last word on every topic.**  Whatever is asked of a broker that
knows nobody and keeps nothing, it keeps afterwards on each topic just the last message
that was published there to be retained, also as the will of a client, and lists and
replays that. -/
theorem keeps_run (calls : List (Call ι)) :
    ((empty : Broker ι).run calls).1.Keeps (publications (fun _ => none) calls) := by
  obtain ⟨left, recorded⟩ := recorded_empty.run calls
  exact recorded.keeps

end Broker

end TopicMesh
