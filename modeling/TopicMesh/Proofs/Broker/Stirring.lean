import TopicMesh.Proofs.Broker.Listening
import TopicMesh.Proofs.Filter.Matching

/-!
# What one client does to the others

A client's work at a hub is any sequence of its operations (`Stirred`).  To everybody
else it does little: the others stay registered and subscribed as they were, and their
queues only grow at the end (`Stirred.queue`), by messages that the client published.

What the hub **carries** is what waits in inboxes and what is kept.  It is described as
the subscribers' callbacks will see it, by deliveries (`Carries`, `due`).
-/

namespace TopicMesh

/-- The delivery that a frame brings on a topic. -/
def ServerFrame.deliveryOn? (topic : String) : ServerFrame → Option Delivery
  | .deliver m => if m.topic = topic then some (.ofMessage m) else none
  | _ => none

theorem ServerFrame.deliveryOn?_eq_some {frame : ServerFrame} {topic : String} {d : Delivery}
    (brings : frame.deliveryOn? topic = some d) :
    ∃ m, frame = .deliver m ∧ m.topic = topic ∧ Delivery.ofMessage m = d := by
  unfold deliveryOn? at brings
  split at brings
  · next m =>
    split at brings
    · next same => exact ⟨m, rfl, same, Option.some.inj brings⟩
    · cases brings
  · cases brings

namespace Delivery

theorem ofMessage_stamp (now : Int64) (m : Message) : ofMessage (m.stamp now) = ofMessage m := by
  unfold Message.stamp
  split <;> rfl

/-- What a message says to callbacks does not depend on when and how it was kept. -/
theorem ofMessage_relayed (now : Int64) (m : Message) (retain : Bool) :
    ofMessage { m.stamp now with retain := retain } = ofMessage m :=
  ofMessage_stamp now m

@[simp] theorem topic_ofMessage (m : Message) : (ofMessage m).topic = m.topic := by
  unfold ofMessage
  cases m.reply <;> rfl

end Delivery

namespace Hub

variable {h h' h'' : Hub} {client reader topic : String} {inbox : Nat} {posts : Message → Prop}
  {roams : Prop}

/-- The deliveries on a topic that wait in an inbox, oldest first. -/
def due (h : Hub) (inbox : Nat) (topic : String) : List Delivery :=
  (h.framesIn inbox).filterMap (ServerFrame.deliveryOn? topic)

/-- Whether everything that waits or is kept brings deliveries of some kind. -/
structure Carries (h : Hub) (P : Delivery → Prop) : Prop where
  frames : ∀ inbox m, .deliver m ∈ h.framesIn inbox → P (.ofMessage m)
  kept : ∀ topic m, h.broker.retained.byTopic.get? topic = some m → P (.ofMessage m)

/-- **The work of one client at a hub.** -/
inductive Stirred (client : String) (posts : Message → Prop) (roams : Prop) (h : Hub) : Hub → Prop
  | refl : Stirred client posts roams h h
  | published {h' : Hub} (m : Message) : Stirred client posts roams h h' → posts m →
    Stirred client posts roams h (h'.publish m)
  | subscribed {h' : Hub} (filter : String) (qos : QoS) : Stirred client posts roams h h' →
    Stirred client posts roams h (h'.subscribe filter client qos)
  | unsubscribed {h' : Hub} (filter : String) : Stirred client posts roams h h' →
    Stirred client posts roams h (h'.unsubscribe filter client)
  | registered {h' : Hub} (will : Option Will) : Stirred client posts roams h h' → roams →
    Stirred client posts roams h (h'.register client will).1
  | cleaned {h' : Hub} : Stirred client posts roams h h' → roams →
    Stirred client posts roams h (h'.cleanup client true)
  /-- An inbox is closed that nobody reads any more. -/
  | closed {h' : Hub} (inbox : Nat) : Stirred client posts roams h h' → roams →
    (∀ other, h'.inboxOf other ≠ some inbox) →
    Stirred client posts roams h (h'.closeInbox inbox)

namespace Stirred

theorem trans (first : Stirred client posts roams h h') (second : Stirred client posts roams h' h'') :
    Stirred client posts roams h h'' := by
  induction second with
  | refl => exact first
  | published m _ may ih => exact .published m ih may
  | subscribed filter qos _ ih => exact .subscribed filter qos ih
  | unsubscribed filter _ ih => exact .unsubscribed filter ih
  | registered will _ may ih => exact .registered will ih may
  | cleaned _ may ih => exact .cleaned ih may
  | closed inbox _ may unread ih => exact .closed inbox ih may unread

theorem sound (stirred : Stirred client posts roams h h') (sound : h.Sound) : h'.Sound := by
  induction stirred with
  | refl => exact sound
  | published m _ _ ih => exact sound_publish ih m
  | subscribed filter qos _ ih => exact sound_subscribe filter client qos ih
  | unsubscribed filter _ ih => exact sound_unsubscribe client ih filter
  | registered will _ _ ih => exact sound_register client will ih
  | cleaned _ _ ih => exact sound_cleanup_graceful client ih
  | closed inbox _ _ unread ih => exact sound_closeInbox ih unread

/-! ## The others -/

section Others

variable (elsewhere : roams → client ≠ reader)
include elsewhere

/-- Whoever does not come or go stays registered. -/
theorem registration (stirred : Stirred client posts roams h h') :
    h'.broker.clients.get? reader = h.broker.clients.get? reader := by
  induction stirred with
  | refl => rfl
  | published m _ _ ih => exact ih
  | subscribed filter qos _ ih => rw [broker_subscribe, Broker.clients_subscribe, ih]
  | unsubscribed filter _ ih => exact ih
  | registered will _ may ih =>
    rw [broker_register]
    show (KeyMap.insert ..).get? reader = _
    rw [KeyMap.get?_insert, if_neg (elsewhere may), ih]
  | cleaned _ may ih =>
    rw [broker_cleanup, Broker.clients_cleanup, KeyMap.get?_erase, if_neg (elsewhere may), ih]
  | closed _ _ _ _ ih => exact ih

theorem inboxOf (stirred : Stirred client posts roams h h') :
    h'.inboxOf reader = h.inboxOf reader := by
  unfold Hub.inboxOf
  rw [stirred.registration elsewhere]

end Others

/-- Others stay subscribed as they were. -/
theorem others_subscribed (stirred : Stirred client posts roams h h') (other : client ≠ reader)
    (filter : String) : h'.broker.subscribed filter reader = h.broker.subscribed filter reader := by
  induction stirred with
  | refl => rfl
  | published m _ _ ih => exact ih
  | subscribed filter' qos _ ih =>
    rw [broker_subscribe, Broker.subscribed_subscribe, decide_eq_false fun all => other all.2.2,
      Bool.or_false, ih]
  | unsubscribed filter' _ ih =>
    rw [broker_unsubscribe, Broker.subscribed_unsubscribe, decide_eq_false fun both => other both.2,
      ih]
    exact Bool.and_true _
  | registered will _ _ ih => exact ih
  | cleaned _ _ ih =>
    rw [broker_cleanup, Broker.subscribed_cleanup, decide_eq_false other, ih]
    exact Bool.and_true _
  | closed _ _ _ _ ih => exact ih

/-! ## What is kept and what waits -/

theorem kept (stirred : Stirred client posts roams h h')
    (passing : ∀ m, posts m → m.topic = topic → m.retain = false) :
    h'.kept topic = h.kept topic := by
  induction stirred with
  | refl => rfl
  | published m _ may ih =>
    rw [kept_publish, if_neg fun both => ?_, ih]
    have gone := passing m may both.2
    rw [both.1] at gone
    cases gone
  | subscribed filter qos _ ih => rw [kept_subscribe, ih]
  | unsubscribed _ _ ih => exact ih
  | registered _ _ _ ih => exact ih
  | cleaned _ _ ih => exact ih
  | closed _ _ _ _ ih => exact ih

end Stirred

/-- The frames of a subscription bring messages that are kept. -/
theorem kept_of_mem_framesOfSubscription (sound : h.Sound) {filter : String} {m : Message}
    (brought : .deliver m ∈ framesOfSubscription (h := h) filter) :
    h.broker.retained.byTopic.get? m.topic = some m := by
  unfold framesOfSubscription at brought
  split at brought
  · obtain ⟨m', matching, same⟩ := List.mem_map.1 brought
    cases same
    obtain ⟨e, entry, rfl⟩ := List.mem_map.1 matching
    have found : h.broker.retained.byTopic.get? e.1 = some e.2 :=
      KeyMap.mem_entries_iff.1 (List.mem_filter.1 entry).1
    rw [sound.topics e.1 e.2 found]
    exact found
  · cases List.mem_singleton.1 brought

theorem readerOf?_of_owner (owner : h.ownerOf? inbox = some reader) :
    h.readerOf? inbox = if h.inboxOf reader = some inbox then some reader else none := by
  unfold readerOf?
  rw [show (h.mailboxes.get? inbox).map Mailbox.client = some reader from owner]
  by_cases reads : h.inboxOf reader = some inbox
  · rw [if_pos reads, Option.filter_some, if_pos (by simpa using reads)]
  · rw [if_neg reads, Option.filter_some, if_neg (by simpa using reads)]

/-- Whether a queue has grown at its end: not at all if nobody reads it, and not by
messages on quiet topics. -/
def Grown (unread : Prop) (quiet : String → Prop) (before after : List ServerFrame) : Prop :=
  ∃ frames, after = before ++ frames ∧ (unread → frames = []) ∧
    ∀ topic, quiet topic → ∀ m, .deliver m ∈ frames → m.topic ≠ topic

section Growing

variable {unread : Prop} {quiet : String → Prop} {old between frames : List ServerFrame}

theorem Grown.refl (old : List ServerFrame) : Grown unread quiet old old :=
  ⟨[], (List.append_nil old).symm, fun _ => rfl, fun _ _ _ none => nomatch none⟩

theorem Grown.append (grown : Grown unread quiet old between) (nothing : unread → frames = [])
    (silent : ∀ topic, quiet topic → ∀ m, .deliver m ∈ frames → m.topic ≠ topic) :
    Grown unread quiet old (between ++ frames) := by
  obtain ⟨earlier, rfl, nothing', silent'⟩ := grown
  refine ⟨earlier ++ frames, List.append_assoc .., fun away => ?_, fun topic still m new => ?_⟩
  · rw [nothing' away, nothing away]
    rfl
  · rcases List.mem_append.1 new with new | new
    · exact silent' topic still m new
    · exact silent topic still m new

end Growing

/-- **A queue only grows**, at its end, and only while its owner reads it.  A topic is
quiet if it is not published on and nothing is kept for it. -/
theorem Stirred.queue (stirred : Stirred client posts roams h h') (sound : h.Sound)
    (elsewhere : roams → client ≠ reader) (owner : h'.ownerOf? inbox = some reader) :
    h.ownerOf? inbox = some reader ∧
      Grown (h.inboxOf reader ≠ some inbox)
        (fun topic => (∀ m, posts m → m.topic ≠ topic) ∧ h.kept topic = none)
        (h.framesIn inbox) (h'.framesIn inbox) := by
  induction stirred with
  | refl => exact ⟨owner, .refl _⟩
  | published m before may ih =>
    rw [ownerOf?_publish] at owner
    obtain ⟨owner₀, grown⟩ := ih owner
    rw [framesIn_publish (before.sound sound)]
    refine ⟨owner₀, grown.append (fun away => ?_) fun topic quiet m' new => ?_⟩
    · rw [readerOf?_of_owner owner, before.inboxOf elsewhere, if_neg away]
      rfl
    · obtain ⟨-, -, e⟩ := List.mem_map.1 new
      cases e
      show (m.stamp _).topic ≠ topic
      rw [stamp_topic]
      exact quiet.1 m may
  | @subscribed hub filter qos before ih =>
    rw [ownerOf?_subscribe] at owner
    obtain ⟨owner₀, grown⟩ := ih owner
    have sound' := before.sound sound
    rw [framesIn_subscribe filter client qos sound']
    -- what is kept comes to the inbox of the client that subscribes, whoever owns it
    refine ⟨owner₀, grown.append (fun away => ?_) fun topic quiet m' new => ?_⟩
    · refine if_neg fun reads => away ?_
      have same := (sound'.ownerOf?_of_inboxOf reads).symm.trans owner
      rw [Option.some.inj same, before.inboxOf elsewhere] at reads
      exact reads
    · split at new
      · rintro rfl
        have found := kept_of_mem_framesOfSubscription sound' new
        have nothing := (before.kept fun m may on => absurd on (quiet.1 m may)).trans quiet.2
        rw [Hub.kept, found] at nothing
        cases nothing
      · cases new
  | unsubscribed filter _ ih => exact ih owner
  | registered will before may ih =>
    rw [ownerOf?_register] at owner
    split at owner
    · exact absurd (Option.some.inj owner) (elsewhere may)
    · rw [framesIn_register client will (before.sound sound)]
      exact ih owner
  | cleaned _ _ ih => exact ih owner
  | closed inbox' _ _ _ ih =>
    rw [ownerOf?_closeInbox] at owner
    split at owner
    · cases owner
    · next apart =>
      rw [framesIn_closeInbox, if_neg apart]
      exact ih owner

/-! ## What is due -/

theorem due_of_grown {unread : Prop} {quiet : String → Prop} {inbox : Nat} {h h' : Hub}
    (grown : Grown unread quiet (h.framesIn inbox) (h'.framesIn inbox)) (topic : String) :
    ∃ more, h'.due inbox topic = h.due inbox topic ++ more ∧ (unread ∨ quiet topic → more = []) := by
  obtain ⟨frames, after, unread_none, silent⟩ := grown
  refine ⟨frames.filterMap (ServerFrame.deliveryOn? topic), ?_, ?_⟩
  · unfold due
    rw [after, List.filterMap_append]
  · rintro (away | still)
    · rw [unread_none away]
      rfl
    · refine List.filterMap_eq_nil_iff.2 fun frame new => ?_
      refine Option.eq_none_iff_forall_ne_some.2 fun d brings => ?_
      obtain ⟨m, rfl, same, -⟩ := ServerFrame.deliveryOn?_eq_some brings
      exact silent topic still m new same

theorem due_of_pop? {frame : ServerFrame} (popped : h.pop? inbox = some (h', client, frame))
    (other : Nat) (topic : String) :
    h.due other topic =
      (if inbox = other then (frame.deliveryOn? topic).toList else []) ++ h'.due other topic := by
  unfold due
  rw [framesIn_of_pop? popped other, List.filterMap_append]
  split
  · cases brings : frame.deliveryOn? topic <;> simp [brings]
  · rfl

theorem Sound.owns_of_subscribed (sound : h.Sound)
    (listed : h.broker.subscribed topic client = true) : h.broker.owns topic client = true :=
  sound.filed.owns_iff.2 ⟨topic, Filter.topicMatches_self topic, listed⟩

/-- **A publication is due to a subscriber of its topic**, once. -/
theorem due_publish_of_subscribed (sound : h.Sound) {m : Message}
    (reads : h.inboxOf reader = some inbox)
    (listed : h.broker.subscribed m.topic reader = true) :
    (h.publish m).due inbox m.topic = h.due inbox m.topic ++ [.ofMessage m] := by
  have brings : ServerFrame.deliveryOn? m.topic (.deliver { m.stamp h.now with retain := false }) =
      some (.ofMessage m) :=
    (if_pos (stamp_topic h.now m)).trans (congrArg some (Delivery.ofMessage_relayed h.now m false))
  unfold due
  rw [framesIn_publish sound, sound.readerOf?_eq_some_iff.2 reads, Option.filter_some,
    if_pos (sound.owns_of_subscribed listed), List.filterMap_append]
  simp [brings]

/-! ## What a hub carries -/

section Carrying

variable {P : Delivery → Prop}

theorem carries_empty (now : Int64) : (empty now).Carries P :=
  ⟨fun _ _ there => (by cases there), fun _ _ there => (by cases there)⟩

theorem carries_publish (sound : h.Sound) (carries : h.Carries P) {m : Message}
    (fine : P (.ofMessage m)) : (h.publish m).Carries P := by
  refine ⟨fun inbox m' there => ?_, fun topic m' there => ?_⟩
  · rw [framesIn_publish sound, List.mem_append] at there
    rcases there with there | there
    · exact carries.frames inbox m' there
    · obtain ⟨-, -, e⟩ := List.mem_map.1 there
      cases e
      rw [Delivery.ofMessage_relayed]
      exact fine
  · change (if (m.stamp h.now).retain then h.broker.retained.store h.now (m.stamp h.now)
      else h.broker.retained).byTopic.get? topic = some m' at there
    split at there
    · unfold Retained.store at there
      split at there
      · rw [KeyMap.get?_erase] at there
        split at there
        · cases there
        · exact carries.kept topic m' there
      · rw [KeyMap.get?_insert] at there
        split at there
        · cases there
          show P (.ofMessage { (m.stamp h.now).stamp h.now with retain := true })
          rw [Delivery.ofMessage_relayed, Delivery.ofMessage_stamp]
          exact fine
        · exact carries.kept topic m' there
    · exact carries.kept topic m' there

theorem carries_subscribe (sound : h.Sound) (carries : h.Carries P) (filter client : String)
    (qos : QoS) : (h.subscribe filter client qos).Carries P := by
  refine ⟨fun inbox m there => ?_, fun topic m there => ?_⟩
  · rw [framesIn_subscribe filter client qos sound, List.mem_append] at there
    rcases there with there | there
    · exact carries.frames inbox m there
    · split at there
      · exact carries.kept m.topic m (kept_of_mem_framesOfSubscription sound there)
      · cases there
  · rw [broker_subscribe, Broker.retained_subscribe] at there
    exact carries.kept topic m there

theorem Stirred.carries (stirred : Stirred client posts roams h h') (sound : h.Sound)
    (fine : ∀ m, posts m → P (.ofMessage m)) (carries : h.Carries P) : h'.Carries P := by
  induction stirred with
  | refl => exact carries
  | published m before may ih => exact carries_publish (before.sound sound) ih (fine m may)
  | subscribed filter qos before ih =>
    exact carries_subscribe (before.sound sound) ih filter client qos
  | unsubscribed filter _ ih => exact ⟨ih.frames, ih.kept⟩
  | registered will before _ ih =>
    refine ⟨fun inbox m there => ih.frames inbox m ?_, ih.kept⟩
    rw [framesIn_register client will (before.sound sound)] at there
    exact there
  | cleaned _ _ ih => exact ⟨ih.frames, ih.kept⟩
  | closed inbox _ _ _ ih =>
    refine ⟨fun other m there => ih.frames other m ?_, ih.kept⟩
    rw [framesIn_closeInbox] at there
    split at there
    · cases there
    · exact there

theorem carries_of_pop? {frame : ServerFrame} (carries : h.Carries P)
    (popped : h.pop? inbox = some (h', client, frame)) : h'.Carries P := by
  refine ⟨fun other m there => carries.frames other m ?_, fun topic m there => ?_⟩
  · rw [framesIn_of_pop? popped other]
    exact List.mem_append_right _ there
  · rw [broker_of_pop? popped] at there
    exact carries.kept topic m there

end Carrying

end Hub

end TopicMesh
