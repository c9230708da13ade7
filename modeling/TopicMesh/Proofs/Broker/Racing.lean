import TopicMesh.Proofs.Broker.Retaining

/-!
# A subscription and a retained message at once

A client subscribes a filter while somebody publishes a message that the filter matches
and that is to be retained.  The broker takes one of the two first.  If it is the
subscription, the client is sent the message as it is published; if it is the message,
it is kept, and replayed to the client as it subscribes.  **Either way it arrives**
(`published_while_subscribing`): the broker ends up the same, and the client is sent one
copy, unless it owned a filter before and sees the message both times.

This needs little of the broker (`Ordered`): filters are in good order, messages are kept
under their own topics and are marked, and no two registered clients share an inbox.
Every broker is so, whatever was asked of it and whatever store it was opened on
(`Reached.ordered`).
-/

namespace TopicMesh

/-- Whether a frame delivers a message, but for the mark of retained messages. -/
def ServerFrame.carries (m : Message) : ServerFrame → Bool
  | .deliver m' => { m' with retain := m.retain } = m
  | _ => false

namespace Broker

variable {ι : Type}

/-- The copies of a message among some frames. -/
def copies (m : Message) (frames : List ServerFrame) : Nat :=
  frames.countP (ServerFrame.carries m)

/-- Whether a client that registers does so with an inbox of its own. -/
def Call.OwnInbox (b : Broker ι) : Call ι → Prop
  | .register client r => ∀ e ∈ b.clients.entries, e.2.inbox = r.inbox → e.1 = client
  | _ => True

/-- **The brokers that there can be.**  A broker starts with nobody known, on a store that
is new or that another one has filled; the store may be written to by others as well. -/
inductive Reached : Broker ι → Prop
  | empty : Reached .empty
  | reopened {b : Broker ι} (earlier : Reached b) : Reached { empty with retained := b.retained }
  | stored {b : Broker ι} (before : Reached b) (now : Int64) (m : Message) :
      Reached { b with retained := b.retained.store now m }
  | call {b : Broker ι} (before : Reached b) (c : Call ι) (own : c.OwnInbox b) :
      Reached (b.perform c).1

/-- Whether a broker is in good order. -/
structure Ordered (b : Broker ι) : Prop where
  filed : b.Filed
  /-- Messages are kept under their topics, and marked. -/
  marked : ∀ topic m, b.retained.byTopic.get? topic = some m → m.topic = topic ∧ m.retain = true
  /-- No two clients share an inbox. -/
  apart : ∀ client r other r', b.clients.get? client = some r → b.clients.get? other = some r' →
    r.inbox = r'.inbox → client = other

/-! ## Every broker is in good order -/

theorem marked_store {s : Retained}
    (marked : ∀ topic m, s.byTopic.get? topic = some m → m.topic = topic ∧ m.retain = true)
    (now : Int64) (m : Message) (topic : String) (m' : Message)
    (kept : (s.store now m).byTopic.get? topic = some m') :
    m'.topic = topic ∧ m'.retain = true := by
  rw [get?_store] at kept
  split at kept
  · next here =>
    split at kept
    · cases kept
    · cases kept
      exact ⟨(Hub.stamp_topic now m).trans here, rfl⟩
  · exact marked topic m' kept

theorem Ordered.publish {b : Broker ι} (ordered : b.Ordered) (now : Int64) (m : Message) :
    (b.publish now m).1.Ordered where
  filed := ordered.filed
  marked := by
    intro topic m' kept
    rw [retained_publish] at kept
    split at kept
    · exact marked_store ordered.marked now _ topic m' kept
    · exact ordered.marked topic m' kept
  apart := ordered.apart

/-- A client that goes leaves the inboxes of the others apart. -/
theorem Ordered.apart_erase {b : Broker ι} (ordered : b.Ordered) (gone client : String)
    (r : Registration ι) (other : String) (r' : Registration ι)
    (there : (b.clients.erase gone).get? client = some r)
    (there' : (b.clients.erase gone).get? other = some r') (shared : r.inbox = r'.inbox) :
    client = other := by
  rw [KeyMap.get?_erase, Option.ite_none_left_eq_some] at there there'
  exact ordered.apart client r other r' there.2 there'.2 shared

theorem Ordered.cleanup {b : Broker ι} (ordered : b.Ordered) (now : Int64) (client : String)
    (graceful : Bool) : (b.cleanup now client graceful).1.Ordered := by
  have leave : (b.cleanup now client true).1.Ordered :=
    ⟨ordered.filed.cleanup now client true, ordered.marked, ordered.apart_erase client⟩
  cases graceful with
  | true => exact leave
  | false =>
    rw [cleanup_ungraceful]
    cases (b.clients.get? client).bind Registration.will with
    | none => exact leave
    | some w => exact leave.publish now w.toMessage

theorem Ordered.register {b : Broker ι} (ordered : b.Ordered) (client : String)
    (r : Registration ι) (own : (Call.register client r).OwnInbox b) :
    (b.register client r).Ordered where
  filed := ordered.filed
  marked := ordered.marked
  apart := by
    have others : ∀ other r', b.clients.get? other = some r' → r'.inbox = r.inbox →
        other = client := fun other r' there => own (other, r') (KeyMap.mem_entries_iff.2 there)
    intro c₁ r₁ c₂ r₂ there₁ there₂ shared
    change (b.clients.insert client r).get? _ = _ at there₁ there₂
    rw [KeyMap.get?_insert] at there₁ there₂
    split at there₁ <;> split at there₂
    · next here₁ here₂ => rw [← here₁, here₂]
    · next here₁ _ =>
      cases there₁
      rw [← here₁, others c₂ r₂ there₂ shared.symm]
    · next _ here₂ =>
      cases there₂
      rw [← here₂, others c₁ r₁ there₁ shared]
    · exact ordered.apart c₁ r₁ c₂ r₂ there₁ there₂ shared

theorem Ordered.perform {b : Broker ι} (ordered : b.Ordered) (c : Call ι) (own : c.OwnInbox b) :
    (b.perform c).1.Ordered := by
  cases c with
  | register client r => exact ordered.register client r own
  | remove client => exact ⟨ordered.filed, ordered.marked, ordered.apart_erase client⟩
  | subscribe filter client qos =>
    refine ⟨ordered.filed.subscribe filter client qos, ?_, ?_⟩
    · show ∀ topic m, (b.subscribe filter client qos).1.retained.byTopic.get? topic = some m → _
      rw [retained_subscribe]
      exact ordered.marked
    · show ∀ c₁ r₁ c₂ r₂, (b.subscribe filter client qos).1.clients.get? c₁ = some r₁ →
        (b.subscribe filter client qos).1.clients.get? c₂ = some r₂ → _
      rw [clients_subscribe]
      exact ordered.apart
  | unsubscribe filter client =>
    exact ⟨ordered.filed.unsubscribe filter client, ordered.marked, ordered.apart⟩
  | publish now m => exact ordered.publish now m
  | cleanup now client graceful => exact ordered.cleanup now client graceful

/-- **Every broker is in good order.** -/
theorem Reached.ordered {b : Broker ι} (reached : b.Reached) : b.Ordered := by
  induction reached with
  | empty => exact ⟨nofun, nofun, nofun⟩
  | reopened _ ih => exact ⟨nofun, ih.marked, nofun⟩
  | stored _ now m ih => exact ⟨ih.filed, marked_store ih.marked now m, ih.apart⟩
  | call _ c own ih => exact ih.perform c own

/-! ## What an inbox is sent -/

section

variable [DecidableEq ι] {b : Broker ι} {client : String} {r : Registration ι}

theorem Ordered.framesFor_own (ordered : b.Ordered) (registered : b.clients.get? client = some r)
    (who : String → Bool) (frames : List ServerFrame) :
    framesFor r.inbox (b.postsTo who frames) = if who client then frames else [] :=
  framesFor_postsTo_own registered
    (fun other r' there shared => ordered.apart other r' client r there registered shared) who frames

/-- A subscription is answered to the subscriber with what is kept. -/
theorem Ordered.framesFor_subscribe (ordered : b.Ordered)
    (registered : b.clients.get? client = some r) {filter : String}
    (valid : Filter.isValid filter = true) (subscriber : String) (qos : QoS) :
    framesFor r.inbox (b.subscribe filter subscriber qos).2 =
      if client = subscriber then (b.retained.matching filter).map .deliver else [] := by
  rw [posts_of_subscribe, ordered.framesFor_own registered, if_pos valid]
  exact if_congr decide_eq_true_iff rfl rfl

/-- A message is sent to its owners. -/
theorem Ordered.framesFor_publish (ordered : b.Ordered)
    (registered : b.clients.get? client = some r) (now : Int64) (m : Message) :
    framesFor r.inbox (b.publish now m).2 =
      if b.owns m.topic client then [.deliver { m.stamp now with retain := false }] else [] := by
  rw [posts_of_publish, ordered.framesFor_own registered]

end

/-! ## Owners -/

section

variable {b : Broker ι} {filter : String} {topic client : String}

/-- A subscription makes its client an owner. -/
theorem Filed.owns_subscribe_self (filed : b.Filed) (valid : Filter.isValid filter = true)
    (covers : Filter.topicMatches filter topic = true) (qos : QoS) :
    (b.subscribe filter client qos).1.owns topic client = true := by
  refine (filed.subscribe filter client qos).owns_iff.2 ⟨filter, covers, ?_⟩
  rw [subscribed_subscribe, decide_eq_true ⟨valid, rfl, rfl⟩, Bool.or_true]

/-- It makes nobody else one. -/
theorem Filed.owns_subscribe_of_ne (filed : b.Filed) (qos : QoS) {other : String}
    (ne : other ≠ client) :
    (b.subscribe filter client qos).1.owns topic other = b.owns topic other := by
  rw [Bool.eq_iff_iff, (filed.subscribe filter client qos).owns_iff, filed.owns_iff]
  refine exists_congr fun filter' => and_congr_right fun _ => ?_
  rw [subscribed_subscribe, decide_eq_false fun all => ne all.2.2.symm, Bool.or_false]

end

/-! ## Copies -/

theorem copies_append (m : Message) (frames others : List ServerFrame) :
    copies m (frames ++ others) = copies m frames + copies m others :=
  List.countP_append

/-- A message in a frame is one copy, marked or not. -/
theorem copies_singleton (m : Message) (retain : Bool) :
    copies m [.deliver { m with retain := retain }] = 1 := by
  have carried : ServerFrame.carries m (.deliver { m with retain := retain }) = true :=
    decide_eq_true rfl
  rw [copies, List.countP_cons_of_pos carried, List.countP_nil]

theorem carries_marked {m m' : Message} (retain : m.retain = true) (marked : m'.retain = true) :
    ServerFrame.carries m (.deliver m') = true ↔ m' = m := by
  have unchanged : { m' with retain := m.retain } = m' := by
    rw [retain, ← marked]
  show decide ({ m' with retain := m.retain } = m) = true ↔ m' = m
  rw [decide_eq_true_iff, unchanged]

/-- **Of what is kept, a filter lists a marked message once if it is kept**, and otherwise not
at all. -/
theorem Ordered.copies_matching {b : Broker ι} (ordered : b.Ordered) {m : Message}
    (retain : m.retain = true) {filter : String}
    (covers : Filter.topicMatches filter m.topic = true) :
    copies m ((b.retained.matching filter).map .deliver) =
      if b.retained.byTopic.get? m.topic = some m then 1 else 0 := by
  have kept : ∀ e ∈ b.retained.byTopic.entries,
      (ServerFrame.carries m (.deliver e.2) && Filter.topicMatches filter e.1) =
        (decide (e.2 = m) && decide (e.1 = m.topic)) := by
    rintro ⟨topic, m'⟩ there
    obtain ⟨rfl, marked⟩ := ordered.marked topic m' (KeyMap.mem_entries_iff.1 there)
    rw [Bool.eq_iff_iff, Bool.and_eq_true_iff, Bool.and_eq_true_iff, carries_marked retain marked,
      decide_eq_true_iff, decide_eq_true_iff]
    constructor
    · rintro ⟨rfl, -⟩
      exact ⟨rfl, rfl⟩
    · rintro ⟨rfl, -⟩
      exact ⟨rfl, covers⟩
  have listed : copies m ((b.retained.matching filter).map .deliver) =
      b.retained.byTopic.entries.countP fun e =>
        ServerFrame.carries m (.deliver e.2) && Filter.topicMatches filter e.1 := by
    unfold copies Retained.matching KeyMap.values KeyMap.filter
    rw [List.map_map, List.countP_map, List.countP_filter]
    rfl
  rw [listed, List.countP_congr fun e there => Bool.eq_iff_iff.1 (kept e there),
    ← List.countP_filter, KeyMap.filter_entries_key]
  cases b.retained.byTopic.get? m.topic with
  | none => rfl
  | some m' => by_cases same : m' = m <;> simp [same]

/-! ## Either order -/

theorem run_pair (b : Broker ι) (first second : Call ι) :
    b.run [first, second] = (((b.perform first).1.perform second).1,
      (b.perform first).2 ++ ((b.perform first).1.perform second).2) := by
  simp [run]

theorem subscribe_of_valid {b : Broker ι} {filter : String} (valid : Filter.isValid filter = true)
    (client : String) (qos : QoS) :
    (b.subscribe filter client qos).1 = { b with
      filters := b.filters.insert filter
        (((b.filters.get? filter).getD (.new filter)).subscribe client qos) } := by
  unfold subscribe
  rw [if_pos valid]

/-- A message with a time is kept as it is, if it is to be kept and has a payload. -/
theorem publish_of_timed {m : Message} (retain : m.retain = true) (timed : m.timestamp ≠ 0)
    (filled : m.payload ≠ []) (b : Broker ι) (now : Int64) :
    (b.publish now m).1 = { b with retained := ⟨b.retained.byTopic.insert m.topic m⟩ } := by
  have unstamped : m.stamp now = m := if_neg timed
  have unmarked : Retained.kept now m = m := by
    rw [Retained.kept, unstamped, ← retain]
  have stored : (b.publish now m).1.retained = ⟨b.retained.byTopic.insert m.topic m⟩ := by
    rw [retained_publish, if_pos retain, unstamped, Retained.store,
      if_neg (by simpa using filled), unmarked]
  exact congrArg (fun retained => { b with retained }) stored

variable [DecidableEq ι] {b : Broker ι} {client : String} {r : Registration ι} {filter : String}
  {m : Message}

/-- **A retained message and a subscription may come in either order.**  For a client that
is registered, a filter that is valid, and a message on a topic that it matches, with a
time and a payload and not the one that is kept already: the broker is the same in the
end; the client is sent the message once if it subscribes first, and if it comes later,
once again as it is published if it owned a filter already; and every other client is
sent the same. -/
theorem published_while_subscribing (reached : b.Reached)
    (registered : b.clients.get? client = some r) (valid : Filter.isValid filter = true)
    (covers : Filter.topicMatches filter m.topic = true) (retain : m.retain = true)
    (timed : m.timestamp ≠ 0) (filled : m.payload ≠ [])
    (news : b.retained.byTopic.get? m.topic ≠ some m) (qos : QoS) (now now' : Int64) :
    let subscribedFirst := b.run [.subscribe filter client qos, .publish now m]
    let publishedFirst := b.run [.publish now' m, .subscribe filter client qos]
    subscribedFirst.1 = publishedFirst.1 ∧
      copies m (framesFor r.inbox subscribedFirst.2) = 1 ∧
      copies m (framesFor r.inbox publishedFirst.2) = (if b.owns m.topic client then 2 else 1) ∧
      ∀ other r', other ≠ client → b.clients.get? other = some r' →
        framesFor r'.inbox subscribedFirst.2 = framesFor r'.inbox publishedFirst.2 := by
  intro subscribedFirst publishedFirst
  have ordered := reached.ordered
  have subscribed : (b.subscribe filter client qos).1.Ordered :=
    ordered.perform (.subscribe filter client qos) trivial
  have published : (b.publish now' m).1.Ordered := ordered.publish now' m
  have unstamped : ∀ now, m.stamp now = m := fun _ => if_neg timed
  have still : ∀ {other r'}, b.clients.get? other = some r' →
      (b.subscribe filter client qos).1.clients.get? other = some r' := fun there => by
    rwa [clients_subscribe]
  refine ⟨?_, ?_, ?_, fun other r' ne there => ?_⟩
  · -- one changes the filters only, the other one the store only
    simp only [subscribedFirst, publishedFirst, run_pair, perform, subscribe_of_valid valid,
      publish_of_timed retain timed filled]
  · simp only [subscribedFirst, run_pair, perform]
    rw [framesFor_append, copies_append, ordered.framesFor_subscribe registered valid, if_pos rfl,
      ordered.copies_matching retain covers, if_neg news,
      subscribed.framesFor_publish (still registered),
      ordered.filed.owns_subscribe_self valid covers qos, if_pos rfl, unstamped, copies_singleton]
  · have kept : (b.publish now' m).1.retained.byTopic.get? m.topic = some m := by
      rw [publish_of_timed retain timed filled]
      exact (KeyMap.get?_insert ..).trans (if_pos rfl)
    simp only [publishedFirst, run_pair, perform]
    rw [framesFor_append, copies_append, ordered.framesFor_publish registered,
      published.framesFor_subscribe registered valid, if_pos rfl,
      published.copies_matching retain covers, if_pos kept, unstamped]
    cases b.owns m.topic client with
    | true => rw [if_pos rfl, if_pos rfl, copies_singleton]
    | false => rfl
  · simp only [subscribedFirst, publishedFirst, run_pair, perform]
    rw [framesFor_append, framesFor_append, ordered.framesFor_subscribe there valid, if_neg ne,
      published.framesFor_subscribe there valid, if_neg ne, List.nil_append, List.append_nil,
      subscribed.framesFor_publish (still there), ordered.framesFor_publish there,
      ordered.filed.owns_subscribe_of_ne qos ne, unstamped, unstamped]

/-- Somebody listens, and an older message is kept. -/
def attended : Broker Nat :=
  ((empty : Broker Nat).run [.register "c" ⟨7, none⟩, .register "d" ⟨8, none⟩,
    .subscribe "a/#" "d" .atMostOnce, .publish 5 (.plain "a/b" [1] .atMostOnce true)]).1

theorem reached_attended : attended.Reached :=
  .call (.call (.call (.call .empty (.register "c" ⟨7, none⟩) nofun) (.register "d" ⟨8, none⟩)
    (show ∀ e ∈ _, _ by decide)) (.subscribe "a/#" "d" .atMostOnce) trivial)
    (.publish 5 (.plain "a/b" [1] .atMostOnce true)) trivial

/-- A newer message is published while the other client subscribes. -/
theorem published_while_subscribing_attended :
    let m : Message := { Message.plain "a/b" [2] .atMostOnce true with timestamp := 9 }
    let subscribedFirst := attended.run [.subscribe "+/b" "c" .atMostOnce, .publish 6 m]
    let publishedFirst := attended.run [.publish 7 m, .subscribe "+/b" "c" .atMostOnce]
    subscribedFirst.1 = publishedFirst.1 ∧
      copies m (framesFor 7 subscribedFirst.2) = 1 ∧
      copies m (framesFor 7 publishedFirst.2) = 1 ∧
      framesFor 8 subscribedFirst.2 = framesFor 8 publishedFirst.2 := by
  intro m subscribedFirst publishedFirst
  have registered : attended.clients.get? "c" = some ⟨7, none⟩ := by decide
  have valid : Filter.isValid "+/b" = true := by decide
  have covers : Filter.topicMatches "+/b" m.topic = true := by decide
  have unowned : attended.owns m.topic "c" = false := by decide
  obtain ⟨same, once, again, others⟩ :=
    published_while_subscribing reached_attended registered valid covers rfl (by decide)
      (by decide) (by decide) .atMostOnce 6 7
  rw [unowned] at again
  exact ⟨same, once, again, others "d" ⟨8, none⟩ (by decide) (by decide)⟩

end Broker

end TopicMesh
