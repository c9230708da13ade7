import Mathlib.Data.List.Basic
import TopicMesh.Proofs.Broker.Reading

/-!
# What waits in the inboxes

A hub is read by the inbox of each client (`inboxOf`), the payload that is kept for
each topic (`kept`) and the payloads on a topic that wait in an inbox (`waiting`,
oldest first).  Each operation of a sound hub (`Sound`) is described by what it does
to these:

* a subscription appends the kept payloads that its filter matches to the inbox of
  the subscriber;
* a published message is appended to the inboxes of the owners of its topic, and is
  kept if it is to be;
* a client that is cleaned up loses its inbox, and its will is published by an
  ungraceful clean-up (`cleanup_ungraceful`).

Nothing is ever taken out of an inbox but by its owner.
-/

namespace TopicMesh

/-- The payload of a delivery on a topic. -/
def ServerFrame.payloadOn? (topic : String) : ServerFrame → Option Bytes
  | .deliver m => if m.topic = topic then some m.payload else none
  | _ => none

namespace Hub

variable (h : Hub)

/-- The inbox of a registered client. -/
def inboxOf (client : String) : Option Nat :=
  (h.broker.clients.get? client).map Registration.inbox

/-- The payload that is kept for a topic. -/
def kept (topic : String) : Option Bytes :=
  (h.broker.retained.byTopic.get? topic).map Message.payload

/-- The frames that wait in an inbox. -/
def framesIn (inbox : Nat) : List ServerFrame :=
  ((h.mailboxes.get? inbox).map Mailbox.frames).getD []

/-- The payloads on a topic that wait in an inbox. -/
def waiting (inbox : Nat) (topic : String) : List Bytes :=
  (h.framesIn inbox).filterMap (ServerFrame.payloadOn? topic)

/-- Whether every registered client has an inbox of its own, inboxes are opened once,
messages are kept under their topics, and filters are in good order. -/
structure Sound : Prop where
  mailbox : ∀ client r, h.broker.clients.get? client = some r →
    ∃ box, h.mailboxes.get? r.inbox = some box ∧ box.client = client
  fresh : ∀ inbox, h.nextInbox ≤ inbox → h.mailboxes.get? inbox = none
  topics : ∀ topic m, h.broker.retained.byTopic.get? topic = some m → m.topic = topic
  filed : h.broker.Filed

variable {h}

theorem sound_empty (now : Int64) : (empty now).Sound :=
  ⟨fun _ _ e => (by cases e), fun _ _ => rfl, fun _ _ e => (by cases e), Broker.filed_empty⟩

theorem Sound.mailbox_of_inboxOf (sound : h.Sound) {client : String} {inbox : Nat}
    (e : h.inboxOf client = some inbox) :
    ∃ box, h.mailboxes.get? inbox = some box ∧ box.client = client := by
  obtain ⟨r, hr, rfl⟩ := Option.map_eq_some_iff.1 e
  exact sound.mailbox client r hr

/-- No two clients have one inbox. -/
theorem Sound.client_unique (sound : h.Sound) {client other : String} {inbox : Nat}
    (e : h.inboxOf client = some inbox) (e' : h.inboxOf other = some inbox) : client = other := by
  obtain ⟨box, hb, rfl⟩ := sound.mailbox_of_inboxOf e
  obtain ⟨box', hb', rfl⟩ := sound.mailbox_of_inboxOf e'
  rw [hb] at hb'
  rw [Option.some.inj hb']

theorem framesIn_eq {inbox : Nat} {box : Mailbox} (e : h.mailboxes.get? inbox = some box) :
    h.framesIn inbox = box.frames := by
  simp [framesIn, e]

/-! ## Posts -/

theorem get?_mailboxes_deliver (posts : List (Post Nat)) (inbox : Nat) :
    (h.deliver posts).mailboxes.get? inbox =
      (h.mailboxes.get? inbox).map fun box =>
        { box with frames := box.frames ++
            (posts.filter fun p => p.inbox = inbox).map Post.frame } := by
  unfold deliver
  generalize h.mailboxes = boxes
  induction posts generalizing boxes with
  | nil =>
    cases h : boxes.get? inbox <;> simp [h]
  | cons p posts ih =>
    rw [List.foldl_cons, ih, KeyMap.get?_modify, List.filter_cons]
    by_cases same : p.inbox = inbox
    · rw [if_pos same, Option.map_map]
      simp [same, Function.comp_def]
    · rw [if_neg same]
      simp [same]

theorem framesIn_deliver {posts : List (Post Nat)} {inbox : Nat}
    (open_ : (posts.filter fun p => p.inbox = inbox) ≠ [] → ∃ box, h.mailboxes.get? inbox = some box) :
    (h.deliver posts).framesIn inbox =
      h.framesIn inbox ++ (posts.filter fun p => p.inbox = inbox).map Post.frame := by
  unfold framesIn
  rw [get?_mailboxes_deliver]
  cases hb : h.mailboxes.get? inbox with
  | some box => rfl
  | none =>
    have : (posts.filter fun p => p.inbox = inbox) = [] :=
      Classical.byContradiction fun ne => by
        obtain ⟨box, hbox⟩ := open_ ne
        rw [hb] at hbox
        cases hbox
    rw [this]
    rfl

theorem sound_deliver (sound : h.Sound) (posts : List (Post Nat)) : (h.deliver posts).Sound where
  mailbox client r hr := by
    obtain ⟨box, hb, hc⟩ := sound.mailbox client r hr
    refine ⟨⟨box.client,
      box.frames ++ (posts.filter fun p => p.inbox = r.inbox).map Post.frame⟩, ?_, hc⟩
    rw [get?_mailboxes_deliver, hb]
    rfl
  fresh inbox hi := by
    rw [get?_mailboxes_deliver, show h.mailboxes.get? inbox = none from sound.fresh inbox hi]
    rfl
  topics := sound.topics
  filed := sound.filed

/-! ## Subscribing -/

section Subscribing

variable (filter client : String) (qos : QoS)

theorem filter_posts_to {ι : Type} [DecidableEq ι] (target inbox : ι) (frames : List ServerFrame) :
    ((frames.map fun f => (⟨target, f⟩ : Post ι)).filter fun p => p.inbox = inbox).map Post.frame =
      if target = inbox then frames else [] := by
  by_cases same : target = inbox
  · rw [if_pos same, List.filter_eq_self.2 fun p hp => ?_, List.map_map]
    · exact List.map_id frames
    · obtain ⟨f, -, rfl⟩ := List.mem_map.1 hp
      simpa using same
  · rw [if_neg same, List.filter_eq_nil_iff.2 fun p hp => ?_]
    · rfl
    · obtain ⟨f, -, rfl⟩ := List.mem_map.1 hp
      simpa using same

/-- The frames that a subscription brings. -/
def framesOfSubscription : List ServerFrame :=
  if Filter.isValid filter then (h.broker.retained.matching filter).map .deliver
  else [.refused s!"invalid filter '{filter}'"]

theorem posts_subscribe :
    (h.broker.subscribe filter client qos).2 =
      match h.inboxOf client with
      | some target => (framesOfSubscription (h := h) filter).map fun f => ⟨target, f⟩
      | none => [] := by
  rw [Broker.posts_of_subscribe, Broker.postsTo, KeyMap.filter_entries_key]
  unfold inboxOf
  cases h.broker.clients.get? client with
  | none => rfl
  | some r => exact List.append_nil _

theorem framesIn_subscribe (sound : h.Sound) (inbox : Nat) :
    (h.subscribe filter client qos).framesIn inbox =
      h.framesIn inbox ++
        if h.inboxOf client = some inbox then framesOfSubscription (h := h) filter else [] := by
  have posts := posts_subscribe (h := h) filter client qos
  have here : ((h.broker.subscribe filter client qos).2.filter fun p => p.inbox = inbox).map
      Post.frame = if h.inboxOf client = some inbox then framesOfSubscription (h := h) filter
        else [] := by
    rw [posts]
    cases h.inboxOf client with
    | none => rfl
    | some target =>
      rw [filter_posts_to]
      simp
  have opened : ((h.broker.subscribe filter client qos).2.filter fun p => p.inbox = inbox) ≠ [] →
      ∃ box, h.mailboxes.get? inbox = some box := by
    intro ne
    have : h.inboxOf client = some inbox := Classical.byContradiction fun other => by
      rw [if_neg other] at here
      exact ne (List.map_eq_nil_iff.1 here)
    obtain ⟨box, hb, -⟩ := sound.mailbox_of_inboxOf this
    exact ⟨box, hb⟩
  show (deliver { h with broker := (h.broker.subscribe filter client qos).1 } _).framesIn inbox = _
  rw [framesIn_deliver (h := { h with broker := (h.broker.subscribe filter client qos).1 }) opened,
    here]
  rfl

/-- The kept messages that match a filter carry on each topic what is kept for it. -/
theorem payloads_matching (sound : h.Sound) (topic : String) :
    (((h.broker.retained.matching filter).map ServerFrame.deliver).filterMap
        (ServerFrame.payloadOn? topic)) =
      if Filter.topicMatches filter topic then (h.kept topic).toList else [] := by
  have on_topic : ∀ e ∈ h.broker.retained.byTopic.entries,
      (if Filter.topicMatches filter e.1 then ServerFrame.payloadOn? topic (.deliver e.2) else none) =
        if Filter.topicMatches filter topic then
          if e.1 = topic then some e.2.payload else none
        else none := by
    intro e he
    have : e.2.topic = e.1 := sound.topics e.1 e.2 (KeyMap.mem_entries_iff.1 he)
    rw [ServerFrame.payloadOn?, this]
    by_cases same : e.1 = topic
    · rw [same]
    · simp [same]
  have listed : (h.broker.retained.byTopic.entries.filterMap fun e =>
      if e.1 = topic then some e.2.payload else none) = (h.kept topic).toList := by
    have := KeyMap.filter_entries_key h.broker.retained.byTopic topic
    have := congrArg (List.filterMap fun e => some e.2.payload) this
    rw [List.filterMap_filter] at this
    simp only [decide_eq_true_eq] at this
    rw [this, kept]
    cases h.broker.retained.byTopic.get? topic <;> rfl
  show (((h.broker.retained.byTopic.entries.filter _).map Prod.snd).map _).filterMap _ = _
  rw [List.map_map, List.filterMap_map, List.filterMap_filter,
    List.filterMap_congr (g := fun e => if Filter.topicMatches filter topic then
      if e.1 = topic then some e.2.payload else none else none) on_topic]
  by_cases hm : Filter.topicMatches filter topic = true
  · simp only [hm, if_true, listed]
  · simp [hm]

theorem waiting_subscribe (sound : h.Sound) (inbox : Nat) (topic : String) :
    (h.subscribe filter client qos).waiting inbox topic =
      h.waiting inbox topic ++
        if h.inboxOf client = some inbox ∧ Filter.isValid filter = true ∧
            Filter.topicMatches filter topic = true then
          (h.kept topic).toList
        else [] := by
  unfold waiting
  rw [framesIn_subscribe filter client qos sound, List.filterMap_append]
  congr 1
  by_cases here : h.inboxOf client = some inbox
  · by_cases valid : Filter.isValid filter = true
    · rw [if_pos here, framesOfSubscription, if_pos valid, payloads_matching filter sound]
      by_cases hm : Filter.topicMatches filter topic = true
      · rw [if_pos hm, if_pos ⟨here, valid, hm⟩]
      · rw [if_neg hm, if_neg fun all => hm all.2.2]
    · rw [if_pos here, framesOfSubscription, if_neg valid, if_neg fun all => valid all.2.1]
      rfl
  · rw [if_neg here, if_neg fun all => here all.1]
    rfl

theorem sound_subscribe (sound : h.Sound) : (h.subscribe filter client qos).Sound := by
  refine sound_deliver (h := { h with broker := (h.broker.subscribe filter client qos).1 }) ?_ _
  refine ⟨fun other r hr => sound.mailbox other r ?_, sound.fresh, fun topic m hm =>
    sound.topics topic m ?_, sound.filed.subscribe filter client qos⟩
  · rw [← hr]
    exact (congrArg (fun c : KeyMap String (Registration Nat) => c.get? other)
      (Broker.clients_subscribe ..)).symm
  · rw [← hm]
    exact (congrArg (fun r : Retained => r.byTopic.get? topic)
      (Broker.retained_subscribe ..)).symm

@[simp] theorem inboxOf_subscribe (other : String) :
    (h.subscribe filter client qos).inboxOf other = h.inboxOf other := by
  unfold inboxOf
  rw [broker_subscribe, Broker.clients_subscribe]

@[simp] theorem kept_subscribe (topic : String) :
    (h.subscribe filter client qos).kept topic = h.kept topic := by
  unfold kept
  rw [broker_subscribe, Broker.retained_subscribe]

end Subscribing

/-! ## Publishing -/

/-- The registered client whose inbox an inbox is. -/
def readerOf? (h : Hub) (inbox : Nat) : Option String :=
  ((h.mailboxes.get? inbox).map Mailbox.client).filter fun c => h.inboxOf c = some inbox

theorem Sound.readerOf?_eq_some_iff (sound : h.Sound) {inbox : Nat} {client : String} :
    h.readerOf? inbox = some client ↔ h.inboxOf client = some inbox := by
  unfold readerOf?
  rw [Option.filter_eq_some_iff]
  constructor
  · rintro ⟨-, hc⟩
    simpa using hc
  · intro hc
    obtain ⟨box, hb, same⟩ := sound.mailbox_of_inboxOf hc
    exact ⟨by rw [hb, ← same]; rfl, by simpa using hc⟩

theorem stamp_topic (now : Int64) (m : Message) : (m.stamp now).topic = m.topic := by
  unfold Message.stamp
  split <;> rfl

theorem stamp_payload (now : Int64) (m : Message) : (m.stamp now).payload = m.payload := by
  unfold Message.stamp
  split <;> rfl

theorem stamp_retain (now : Int64) (m : Message) : (m.stamp now).retain = m.retain := by
  unfold Message.stamp
  split <;> rfl

/-- The recipients of a message whose inbox an inbox is: its reader, if that owns the
topic. -/
theorem recipients_at (sound : h.Sound) (topic : String) (inbox : Nat) :
    ((h.broker.recipients topic).filter fun e => e.2.inbox = inbox).map Prod.fst =
      ((h.readerOf? inbox).filter (h.broker.owns topic)).toList := by
  unfold Broker.recipients
  rw [List.filter_filter]
  cases hr : h.readerOf? inbox with
  | none =>
    rw [List.filter_eq_nil_iff.2 fun e he both => ?_]
    · rfl
    · have here : e.2.inbox = inbox := by
        simp only [Bool.and_eq_true, decide_eq_true_eq] at both
        exact both.1
      have : h.inboxOf e.1 = some inbox := by
        rw [inboxOf, KeyMap.mem_entries_iff.1 he, ← here]
        rfl
      rw [sound.readerOf?_eq_some_iff.2 this] at hr
      cases hr
  | some client =>
    have hc := sound.readerOf?_eq_some_iff.1 hr
    obtain ⟨r, hget, hi⟩ := Option.map_eq_some_iff.1 hc
    have only : ∀ e ∈ h.broker.clients.entries,
        (decide (e.2.inbox = inbox) && h.broker.owns topic e.1) =
          (h.broker.owns topic client && decide (e.1 = client)) := by
      intro e he
      have get := KeyMap.mem_entries_iff.1 he
      by_cases same : e.1 = client
      · have : e.2 = r := by
          rw [same, hget] at get
          exact (Option.some.inj get).symm
        simp [same, this, hi]
      · have : e.2.inbox ≠ inbox := fun here => same (sound.client_unique (by
          rw [inboxOf, get, ← here]
          rfl) hc)
        simp [same, this]
    rw [List.filter_congr only]
    cases howns : h.broker.owns topic client with
    | false => simp [Option.filter, howns]
    | true =>
      simp only [Bool.true_and]
      rw [KeyMap.filter_entries_key, hget]
      simp [Option.filter, howns]

theorem framesIn_publish (sound : h.Sound) (m : Message) (inbox : Nat) :
    (h.publish m).framesIn inbox =
      h.framesIn inbox ++ ((h.readerOf? inbox).filter (h.broker.owns m.topic)).toList.map fun _ =>
        .deliver { m.stamp h.now with retain := false } := by
  have here : (((h.broker.publish h.now m).2.filter fun p => p.inbox = inbox).map Post.frame) =
      ((h.readerOf? inbox).filter (h.broker.owns m.topic)).toList.map fun _ =>
        .deliver { m.stamp h.now with retain := false } := by
    rw [← recipients_at sound]
    unfold Broker.publish
    dsimp only
    rw [List.filter_map, List.map_map, List.map_map, stamp_topic]
    rfl
  have opened : ((h.broker.publish h.now m).2.filter fun p => p.inbox = inbox) ≠ [] →
      ∃ box, h.mailboxes.get? inbox = some box := by
    intro ne
    cases hb : h.mailboxes.get? inbox with
    | some box => exact ⟨box, rfl⟩
    | none =>
      have : h.readerOf? inbox = none := by
        rw [readerOf?, hb]
        rfl
      rw [this] at here
      exact absurd (List.map_eq_nil_iff.1 here) ne
  show (deliver { h with broker := (h.broker.publish h.now m).1 } _).framesIn inbox = _
  rw [framesIn_deliver (h := { h with broker := (h.broker.publish h.now m).1 }) opened, here]
  rfl

theorem waiting_publish (sound : h.Sound) (m : Message) (inbox : Nat) (topic : String) :
    (h.publish m).waiting inbox topic =
      h.waiting inbox topic ++
        if m.topic = topic ∧ (h.readerOf? inbox).any (h.broker.owns topic) = true then [m.payload]
        else [] := by
  unfold waiting
  rw [framesIn_publish sound, List.filterMap_append, List.filterMap_map]
  congr 1
  have frame : ServerFrame.payloadOn? topic (.deliver { m.stamp h.now with retain := false }) =
      if m.topic = topic then some m.payload else none := by
    simp only [ServerFrame.payloadOn?, stamp_topic, stamp_payload]
  cases h.readerOf? inbox with
  | none => simp
  | some client =>
    by_cases same : m.topic = topic
    · subst same
      cases howns : h.broker.owns m.topic client <;> simp [Option.filter, howns, frame]
    · cases howns : h.broker.owns m.topic client <;> simp [frame, same]

theorem kept_publish (m : Message) (topic : String) :
    (h.publish m).kept topic =
      if m.retain = true ∧ m.topic = topic then
        if m.payload.isEmpty then none else some m.payload
      else h.kept topic := by
  unfold kept
  rw [broker_publish]
  unfold Broker.publish
  dsimp only
  rw [stamp_retain]
  by_cases keep : m.retain = true
  · rw [if_pos keep]
    unfold Retained.store
    rw [stamp_payload, stamp_topic]
    by_cases empty : m.payload.isEmpty = true
    · rw [if_pos empty]
      show Option.map _ ((h.broker.retained.byTopic.erase m.topic).get? topic) = _
      rw [KeyMap.get?_erase]
      by_cases same : m.topic = topic <;> simp [keep, same, empty]
    · rw [if_neg empty]
      show Option.map _ ((h.broker.retained.byTopic.insert m.topic _).get? topic) = _
      rw [KeyMap.get?_insert]
      by_cases same : m.topic = topic
      · simp [keep, same, empty, Retained.kept, stamp_payload]
      · simp [same]
  · rw [if_neg keep, if_neg fun both => keep both.1]

theorem sound_publish (sound : h.Sound) (m : Message) : (h.publish m).Sound := by
  refine sound_deliver (h := { h with broker := (h.broker.publish h.now m).1 }) ?_ _
  refine ⟨sound.mailbox, sound.fresh, fun topic kept hk => ?_, sound.filed⟩
  show kept.topic = topic
  change (if (m.stamp h.now).retain then h.broker.retained.store h.now (m.stamp h.now)
    else h.broker.retained).byTopic.get? topic = some kept at hk
  split at hk
  · unfold Retained.store at hk
    split at hk
    · rw [KeyMap.get?_erase] at hk
      split at hk
      · cases hk
      · exact sound.topics topic kept hk
    · rw [KeyMap.get?_insert] at hk
      split at hk
      · next same =>
        cases hk
        exact (stamp_topic ..).trans same
      · exact sound.topics topic kept hk
  · exact sound.topics topic kept hk

/-! ## Coming and going -/

section Coming

variable (client : String) (will : Option Will)

@[simp] theorem inboxOf_register (other : String) :
    (h.register client will).1.inboxOf other =
      if client = other then some h.nextInbox else h.inboxOf other := by
  unfold inboxOf
  rw [broker_register]
  show Option.map _ ((h.broker.clients.insert client _).get? other) = _
  rw [KeyMap.get?_insert]
  split <;> rfl

@[simp] theorem kept_register (topic : String) :
    (h.register client will).1.kept topic = h.kept topic := rfl

/-- A new inbox is empty, as if it had been open before. -/
theorem framesIn_register (sound : h.Sound) (inbox : Nat) :
    (h.register client will).1.framesIn inbox = h.framesIn inbox := by
  unfold framesIn
  show ((h.mailboxes.insert h.nextInbox _).get? inbox |>.map _).getD [] = _
  rw [KeyMap.get?_insert]
  split
  · next same =>
    rw [sound.fresh inbox (Nat.le_of_eq same)]
    rfl
  · rfl

theorem sound_register (sound : h.Sound) : (h.register client will).1.Sound where
  mailbox other r hr := by
    change (h.broker.clients.insert client _).get? other = some r at hr
    show ∃ box, (h.mailboxes.insert h.nextInbox _).get? r.inbox = some box ∧ _
    rw [KeyMap.get?_insert] at hr ⊢
    split at hr
    · next same =>
      cases hr
      rw [if_pos rfl]
      exact ⟨_, rfl, same⟩
    · obtain ⟨box, hb, hc⟩ := sound.mailbox other r hr
      have : h.nextInbox ≠ r.inbox := fun same => by
        rw [sound.fresh r.inbox (Nat.le_of_eq same)] at hb
        cases hb
      rw [if_neg this]
      exact ⟨box, hb, hc⟩
  fresh inbox hi := by
    show (h.mailboxes.insert h.nextInbox _).get? inbox = none
    have hi : h.nextInbox + 1 ≤ inbox := hi
    rw [KeyMap.get?_insert, if_neg (by omega)]
    exact sound.fresh inbox (by omega)
  topics := sound.topics
  filed := sound.filed

end Coming

section Going

variable (client : String)

theorem sound_unsubscribe (sound : h.Sound) (filter : String) : (h.unsubscribe filter client).Sound :=
  ⟨sound.mailbox, sound.fresh, sound.topics, sound.filed.unsubscribe filter client⟩

/-- An ungraceful clean-up is a graceful one, and the publication of the will after it. -/
theorem cleanup_ungraceful :
    h.cleanup client false =
      match (h.broker.clients.get? client).bind Registration.will with
      | none => h.cleanup client true
      | some w => (h.cleanup client true).publish w.toMessage := by
  unfold cleanup
  rw [Broker.cleanup_ungraceful]
  cases (h.broker.clients.get? client).bind Registration.will <;> rfl

@[simp] theorem inboxOf_cleanup_graceful (other : String) :
    (h.cleanup client true).inboxOf other = if client = other then none else h.inboxOf other := by
  unfold inboxOf
  rw [broker_cleanup, Broker.clients_cleanup, KeyMap.get?_erase]
  split <;> rfl

/-- Nobody reads the inbox of a client that was cleaned up. -/
theorem Sound.unread_cleanup {client : String} (sound : h.Sound) {inbox : Nat}
    (reads : h.inboxOf client = some inbox) (other : String) :
    (h.cleanup client true).inboxOf other ≠ some inbox := by
  intro read
  rw [inboxOf_cleanup_graceful] at read
  split at read
  · cases read
  · next apart => exact apart (sound.client_unique reads read)

@[simp] theorem kept_cleanup_graceful (topic : String) :
    (h.cleanup client true).kept topic = h.kept topic := rfl

theorem sound_cleanup_graceful (sound : h.Sound) : (h.cleanup client true).Sound := by
  refine ⟨fun other r hr => sound.mailbox other r ?_, sound.fresh, sound.topics,
    sound.filed.cleanup h.now client true⟩
  rw [broker_cleanup, Broker.clients_cleanup, KeyMap.get?_erase] at hr
  split at hr
  · cases hr
  · exact hr

theorem framesIn_closeInbox (closed inbox : Nat) :
    (h.closeInbox closed).framesIn inbox = if closed = inbox then [] else h.framesIn inbox := by
  unfold framesIn
  show (((h.mailboxes.erase closed).get? inbox).map _).getD [] = _
  rw [KeyMap.get?_erase]
  split <;> rfl

/-- An inbox that nobody reads any more may be closed. -/
theorem sound_closeInbox (sound : h.Sound) {inbox : Nat}
    (unread : ∀ client, h.inboxOf client ≠ some inbox) : (h.closeInbox inbox).Sound where
  mailbox other r hr := by
    obtain ⟨box, hb, hc⟩ := sound.mailbox other r hr
    have read : h.inboxOf other = some r.inbox := congrArg (Option.map Registration.inbox) hr
    have : inbox ≠ r.inbox := fun same => unread other (same ▸ read)
    refine ⟨box, ?_, hc⟩
    show (h.mailboxes.erase inbox).get? r.inbox = some box
    rw [KeyMap.get?_erase, if_neg this, hb]
  fresh other hi := by
    show (h.mailboxes.erase inbox).get? other = none
    rw [KeyMap.get?_erase, show h.mailboxes.get? other = none from sound.fresh other hi, ite_self]
  topics := sound.topics
  filed := sound.filed

end Going

/-! ## Taking a frame out -/

section Taking

variable {h' : Hub} {inbox : Nat} {client : String} {frame : ServerFrame}

theorem pop?_eq_some (popped : h.pop? inbox = some (h', client, frame)) :
    ∃ rest, h.mailboxes.get? inbox = some ⟨client, frame :: rest⟩ ∧
      h' = { h with mailboxes := h.mailboxes.insert inbox ⟨client, rest⟩ } := by
  unfold pop? at popped
  split at popped
  · next c f rest hb =>
    cases popped
    exact ⟨rest, hb, rfl⟩
  · cases popped

theorem broker_of_pop? (popped : h.pop? inbox = some (h', client, frame)) :
    h'.broker = h.broker := by
  obtain ⟨rest, -, rfl⟩ := pop?_eq_some popped
  rfl

theorem framesIn_of_pop? (popped : h.pop? inbox = some (h', client, frame)) (other : Nat) :
    h.framesIn other = (if inbox = other then [frame] else []) ++ h'.framesIn other := by
  obtain ⟨rest, hb, rfl⟩ := pop?_eq_some popped
  unfold framesIn
  dsimp only
  rw [KeyMap.get?_insert]
  split
  · next same =>
    rw [← same, hb]
    rfl
  · rfl

theorem sound_of_pop? (sound : h.Sound) (popped : h.pop? inbox = some (h', client, frame)) :
    h'.Sound := by
  obtain ⟨rest, hb, rfl⟩ := pop?_eq_some popped
  refine ⟨fun other r hr => ?_, fun other hi => ?_, sound.topics, sound.filed⟩
  · obtain ⟨box, hbox, hc⟩ := sound.mailbox other r hr
    dsimp only
    rw [KeyMap.get?_insert]
    split
    · next same =>
      rw [← same, hb] at hbox
      cases hbox
      exact ⟨_, rfl, hc⟩
    · exact ⟨box, hbox, hc⟩
  · dsimp only
    have closed : h.mailboxes.get? other = none := sound.fresh other hi
    have : inbox ≠ other := fun same => by
      rw [← same, hb] at closed
      cases closed
    rw [KeyMap.get?_insert, if_neg this, closed]

end Taking

end Hub

end TopicMesh
