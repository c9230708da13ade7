import TopicMesh.Proofs.Broker.Posting

/-!
# Listening to what is kept

A listener follows a topic by what is kept for it: the newest payload is either the
last one that waits in the listener's inbox, or nothing waits and the listener has
taken it in (`Latest`).  That holds from the moment at which the listener subscribes
a matching filter (`latest_of_subscribe`), and goes on to hold for as long as it stays
subscribed and everything on the topic is kept (`latest_publish`).

Besides, everything that waits or is kept comes from somebody who may say so, as long
as nobody else publishes (`Truthful`); and inboxes that nobody reads get nothing more
(`framesIn_publish_unread`).
-/

namespace TopicMesh.Hub

variable {h : Hub} {inbox : Nat} {client topic : String} {taken : Bytes → Prop}

/-- Whose inbox an inbox is, or was. -/
def ownerOf? (h : Hub) (inbox : Nat) : Option String :=
  (h.mailboxes.get? inbox).map Mailbox.client

/-- Whether a client is listed below a filter. -/
def Listens (h : Hub) (filter client : String) : Prop :=
  h.broker.subscribed filter client = true

/-- Whether the payload that is kept for a topic is the last one that waits in an
inbox, or nothing waits there and the payload was taken in. -/
def Latest (h : Hub) (inbox : Nat) (topic : String) (taken : Bytes → Prop) : Prop :=
  ∀ payload, h.kept topic = some payload →
    (h.waiting inbox topic).getLast? = some payload ∨ h.waiting inbox topic = [] ∧ taken payload

/-- Whether everything that waits or is kept may be said. -/
structure Truthful (h : Hub) (may : String → Bytes → Prop) : Prop where
  frames : ∀ inbox m, .deliver m ∈ h.framesIn inbox → may m.topic m.payload
  kept : ∀ topic payload, h.kept topic = some payload → may topic payload

/-! ## Owners -/

@[simp] theorem ownerOf?_deliver (posts : List (Post Nat)) :
    (h.deliver posts).ownerOf? inbox = h.ownerOf? inbox := by
  unfold ownerOf?
  rw [get?_mailboxes_deliver, Option.map_map]
  rfl

@[simp] theorem ownerOf?_subscribe (filter : String) (qos : QoS) :
    (h.subscribe filter client qos).ownerOf? inbox = h.ownerOf? inbox :=
  ownerOf?_deliver (h := { h with broker := (h.broker.subscribe filter client qos).1 }) _

@[simp] theorem ownerOf?_publish (m : Message) :
    (h.publish m).ownerOf? inbox = h.ownerOf? inbox :=
  ownerOf?_deliver (h := { h with broker := (h.broker.publish h.now m).1 }) _

theorem ownerOf?_register (will : Option Will) :
    (h.register client will).1.ownerOf? inbox =
      if h.nextInbox = inbox then some client else h.ownerOf? inbox := by
  unfold ownerOf?
  show ((h.mailboxes.insert h.nextInbox _).get? inbox).map _ = _
  rw [KeyMap.get?_insert]
  split <;> rfl

theorem ownerOf?_closeInbox (closed : Nat) :
    (h.closeInbox closed).ownerOf? inbox = if closed = inbox then none else h.ownerOf? inbox := by
  unfold ownerOf?
  show ((h.mailboxes.erase closed).get? inbox).map _ = _
  rw [KeyMap.get?_erase]
  split <;> rfl

theorem Sound.ownerOf?_of_inboxOf (sound : h.Sound) (reads : h.inboxOf client = some inbox) :
    h.ownerOf? inbox = some client := by
  obtain ⟨box, hb, rfl⟩ := sound.mailbox_of_inboxOf reads
  rw [ownerOf?, hb]
  rfl

/-! ## Inboxes that nobody reads -/

section Unread

variable (unread : ∀ client, h.inboxOf client ≠ some inbox)
include unread

theorem framesIn_subscribe_unread (sound : h.Sound) (filter client : String) (qos : QoS) :
    (h.subscribe filter client qos).framesIn inbox = h.framesIn inbox := by
  rw [framesIn_subscribe filter client qos sound, if_neg (unread client), List.append_nil]

theorem framesIn_publish_unread (sound : h.Sound) (m : Message) :
    (h.publish m).framesIn inbox = h.framesIn inbox := by
  have nobody : h.readerOf? inbox = none := by
    cases hr : h.readerOf? inbox with
    | none => rfl
    | some client => exact absurd (sound.readerOf?_eq_some_iff.1 hr) (unread client)
  rw [framesIn_publish sound, nobody]
  exact List.append_nil _

end Unread

/-! ## Staying listed -/

theorem listens_subscribe {filter : String} (listens : h.Listens filter client)
    (filter' client' : String) (qos : QoS) :
    (h.subscribe filter' client' qos).Listens filter client := by
  unfold Listens at listens ⊢
  rw [broker_subscribe, Broker.subscribed_subscribe, listens, Bool.true_or]

theorem listens_of_subscribe {filter : String} (valid : Filter.isValid filter = true) (qos : QoS) :
    (h.subscribe filter client qos).Listens filter client := by
  unfold Listens
  rw [broker_subscribe, Broker.subscribed_subscribe]
  simp [valid]

theorem listens_unsubscribe {filter filter' : String} (listens : h.Listens filter client)
    {client' : String} (other : ¬(filter' = filter ∧ client' = client)) :
    (h.unsubscribe filter' client').Listens filter client := by
  unfold Listens at listens ⊢
  rw [broker_unsubscribe, Broker.subscribed_unsubscribe, listens, decide_eq_false other]
  rfl

theorem listens_cleanup {filter : String} (listens : h.Listens filter client) {client' : String}
    (other : client' ≠ client) (graceful : Bool) :
    (h.cleanup client' graceful).Listens filter client := by
  unfold Listens at listens ⊢
  rw [broker_cleanup, Broker.subscribed_cleanup, listens]
  simpa using other

/-! ## The newest payload -/

theorem waiting_register (sound : h.Sound) (will : Option Will) :
    (h.register client will).1.waiting inbox topic = h.waiting inbox topic := by
  unfold waiting
  rw [framesIn_register client will sound]

/-- What is kept comes as a whole with any subscription that matches. -/
theorem latest_subscribe (sound : h.Sound) (latest : h.Latest inbox topic taken)
    (filter client : String) (qos : QoS) :
    (h.subscribe filter client qos).Latest inbox topic taken := by
  intro payload kept
  rw [kept_subscribe] at kept
  rw [waiting_subscribe filter client qos sound, kept]
  split
  · exact .inl (List.getLast?_concat ..)
  · rw [List.append_nil]
    exact latest payload kept

theorem latest_of_subscribe (sound : h.Sound) {filter : String}
    (reads : h.inboxOf client = some inbox) (valid : Filter.isValid filter = true)
    (matching : Filter.topicMatches filter topic = true) (qos : QoS) :
    (h.subscribe filter client qos).Latest inbox topic taken := by
  intro payload kept
  rw [kept_subscribe] at kept
  rw [waiting_subscribe filter client qos sound, kept, if_pos ⟨reads, valid, matching⟩]
  exact .inl (List.getLast?_concat ..)

theorem latest_publish (sound : h.Sound) (latest : h.Latest inbox topic taken)
    (reads : h.inboxOf client = some inbox) (owns : h.broker.owns topic client = true)
    {m : Message} (keep : m.retain = true) : (h.publish m).Latest inbox topic taken := by
  intro payload kept
  rw [kept_publish] at kept
  rw [waiting_publish sound]
  have reader : (h.readerOf? inbox).any (h.broker.owns topic) = true := by
    rw [sound.readerOf?_eq_some_iff.2 reads]
    exact owns
  by_cases same : m.topic = topic
  · rw [if_pos ⟨keep, same⟩] at kept
    rw [if_pos ⟨same, reader⟩]
    split at kept
    · cases kept
    · rw [Option.some.inj kept]
      exact .inl (List.getLast?_concat ..)
  · rw [if_neg fun both => same both.2] at kept
    rw [if_neg fun both => same both.1, List.append_nil]
    exact latest payload kept

theorem latest_register (sound : h.Sound) (latest : h.Latest inbox topic taken) (will : Option Will) :
    (h.register client will).1.Latest inbox topic taken := by
  intro payload kept
  rw [waiting_register sound will]
  exact latest payload kept

theorem latest_closeInbox (latest : h.Latest inbox topic taken) {closed : Nat}
    (other : closed ≠ inbox) : (h.closeInbox closed).Latest inbox topic taken := by
  intro payload kept
  unfold waiting
  rw [framesIn_closeInbox, if_neg other]
  exact latest payload kept

/-- If nothing waits, what is kept was taken in. -/
theorem taken_of_latest (latest : h.Latest inbox topic taken) {payload : Bytes}
    (kept : h.kept topic = some payload) (empty : h.framesIn inbox = []) : taken payload := by
  have nothing : h.waiting inbox topic = [] := by
    unfold waiting
    rw [empty]
    rfl
  rcases latest payload kept with last | ⟨-, was_taken⟩
  · rw [nothing] at last
    cases last
  · exact was_taken

/-! ## Taking a frame -/

section Taking

variable {h' : Hub} {frame : ServerFrame} {taken' : Bytes → Prop}

theorem waiting_of_pop? (popped : h.pop? inbox = some (h', client, frame)) (other : Nat)
    (topic : String) :
    h.waiting other topic =
      (if inbox = other then (frame.payloadOn? topic).toList else []) ++ h'.waiting other topic := by
  unfold waiting
  rw [framesIn_of_pop? popped other, List.filterMap_append]
  congr 1
  split
  · cases h : frame.payloadOn? topic <;> simp [h]
  · rfl

theorem kept_of_pop? (popped : h.pop? inbox = some (h', client, frame)) (topic : String) :
    h'.kept topic = h.kept topic := by
  rw [kept, kept, broker_of_pop? popped]

theorem ownerOf?_of_pop? (popped : h.pop? inbox = some (h', client, frame)) (other : Nat) :
    h'.ownerOf? other = h.ownerOf? other ∧ h.ownerOf? inbox = some client := by
  obtain ⟨rest, hb, rfl⟩ := pop?_eq_some popped
  refine ⟨?_, by rw [ownerOf?, hb]; rfl⟩
  unfold ownerOf?
  dsimp only
  rw [KeyMap.get?_insert]
  split
  · next same =>
    rw [← same, hb]
    rfl
  · rfl

/-- A frame out of another inbox. -/
theorem latest_of_pop?_elsewhere {other : Nat} (popped : h.pop? other = some (h', client, frame))
    (apart : other ≠ inbox) (latest : h.Latest inbox topic taken) :
    h'.Latest inbox topic taken := by
  intro payload kept
  have before := latest payload ((kept_of_pop? popped topic).symm.trans kept)
  rw [waiting_of_pop? popped, if_neg apart, List.nil_append] at before
  exact before

/-- A frame that is not on the topic. -/
theorem latest_of_pop?_unmoved (popped : h.pop? inbox = some (h', client, frame))
    (off : frame.payloadOn? topic = none) (still : ∀ payload, taken payload → taken' payload)
    (latest : h.Latest inbox topic taken) : h'.Latest inbox topic taken' := by
  intro payload kept
  have before := latest payload ((kept_of_pop? popped topic).symm.trans kept)
  rw [waiting_of_pop? popped, off, if_pos rfl] at before
  exact before.imp_right fun both => ⟨both.1, still payload both.2⟩

/-- The oldest payload on the topic, which is taken in.  If no other one waits, it is
what is kept. -/
theorem latest_of_pop?_taken {payload : Bytes}
    (popped : h.pop? inbox = some (h', client, frame)) (on : frame.payloadOn? topic = some payload)
    (now_taken : taken' payload) (latest : h.Latest inbox topic taken) :
    h'.Latest inbox topic taken' := by
  intro newest kept
  have before := latest newest ((kept_of_pop? popped topic).symm.trans kept)
  rw [waiting_of_pop? popped, on, if_pos rfl] at before
  rcases before with last | ⟨nothing, -⟩
  · cases hw : h'.waiting inbox topic with
    | nil =>
      rw [hw] at last
      cases last
      exact .inr ⟨rfl, now_taken⟩
    | cons first rest =>
      rw [hw] at last
      exact .inl last
  · cases nothing

end Taking

/-! ## Who may say what -/

section Saying

variable {may : String → Bytes → Prop}

theorem truthful_empty (now : Int64) : (empty now).Truthful may :=
  ⟨fun _ _ hm => (by cases hm), fun _ _ hk => (by cases hk)⟩

theorem truthful_subscribe (sound : h.Sound) (truthful : h.Truthful may) (filter client : String)
    (qos : QoS) : (h.subscribe filter client qos).Truthful may := by
  refine ⟨fun inbox m hm => ?_, fun topic payload hk => ?_⟩
  · rw [framesIn_subscribe filter client qos sound, List.mem_append] at hm
    rcases hm with hm | hm
    · exact truthful.frames inbox m hm
    · split at hm
      · unfold framesOfSubscription at hm
        split at hm
        · -- the message is a kept one, below its own topic
          obtain ⟨m', hmatching, e⟩ := List.mem_map.1 hm
          cases e
          obtain ⟨e, he, rfl⟩ := List.mem_map.1 hmatching
          have get : h.broker.retained.byTopic.get? e.1 = some e.2 :=
            KeyMap.mem_entries_iff.1 (List.mem_filter.1 he).1
          rw [sound.topics e.1 e.2 get]
          refine truthful.kept e.1 e.2.payload ?_
          rw [Hub.kept, get]
          rfl
        · cases List.mem_singleton.1 hm
      · cases hm
  · rw [kept_subscribe] at hk
    exact truthful.kept topic payload hk

theorem truthful_publish (sound : h.Sound) (truthful : h.Truthful may) {m : Message}
    (allowed : may m.topic m.payload) : (h.publish m).Truthful may := by
  refine ⟨fun inbox m' hm => ?_, fun topic payload hk => ?_⟩
  · rw [framesIn_publish sound, List.mem_append] at hm
    rcases hm with hm | hm
    · exact truthful.frames inbox m' hm
    · obtain ⟨-, -, e⟩ := List.mem_map.1 hm
      cases e
      show may (m.stamp h.now).topic (m.stamp h.now).payload
      rw [stamp_topic, stamp_payload]
      exact allowed
  · rw [kept_publish] at hk
    split at hk
    · next same =>
      split at hk
      · cases hk
      · cases hk
        rw [← same.2]
        exact allowed
    · exact truthful.kept topic payload hk

theorem truthful_register (sound : h.Sound) (truthful : h.Truthful may) (client : String)
    (will : Option Will) : (h.register client will).1.Truthful may := by
  refine ⟨fun inbox m hm => ?_, truthful.kept⟩
  rw [framesIn_register client will sound] at hm
  exact truthful.frames inbox m hm

theorem truthful_closeInbox (truthful : h.Truthful may) (closed : Nat) :
    (h.closeInbox closed).Truthful may := by
  refine ⟨fun inbox m hm => ?_, truthful.kept⟩
  rw [framesIn_closeInbox] at hm
  split at hm
  · cases hm
  · exact truthful.frames inbox m hm

theorem truthful_of_pop? {h' : Hub} {frame : ServerFrame} (truthful : h.Truthful may)
    (popped : h.pop? inbox = some (h', client, frame)) : h'.Truthful may := by
  refine ⟨fun other m hm => truthful.frames other m ?_, fun topic payload hk => ?_⟩
  · rw [framesIn_of_pop? popped other]
    exact List.mem_append_right _ hm
  · exact truthful.kept topic payload ((kept_of_pop? popped topic).symm.trans hk)

end Saying

end TopicMesh.Hub
