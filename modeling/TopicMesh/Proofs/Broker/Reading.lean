import TopicMesh.Broker.Hub
import TopicMesh.Proofs.KeyMap.Reading

/-!
# What the broker's operations do to what it knows

A broker is read by `clients.get?` (who is registered), `qos?` and `subscribed` (who is
listed below which filter) and `retained`.  Each operation is described by what it does
to these.  A hub's operations do to its broker what the broker's own do
(`Hub.broker_subscribe` and the like).

Filters are kept in good order (`Filed`): each is valid, kept under its own name, and
has a subscriber.
-/

namespace TopicMesh

namespace Broker

variable {ι : Type} (b : Broker ι)

/-! ## The registered clients -/

@[simp] theorem clients_subscribe (filter client : String) (qos : QoS) :
    (b.subscribe filter client qos).1.clients = b.clients := by
  unfold subscribe
  split <;> rfl

@[simp] theorem clients_unsubscribe (filter client : String) :
    (b.unsubscribe filter client).clients = b.clients := rfl

@[simp] theorem clients_publish (now : Int64) (m : Message) :
    (b.publish now m).1.clients = b.clients := rfl

@[simp] theorem clients_cleanup (now : Int64) (client : String) (graceful : Bool) :
    (b.cleanup now client graceful).1.clients = b.clients.erase client := by
  unfold cleanup
  dsimp only
  split <;> rfl

/-! ## The listed subscribers -/

/-- A filter that is not in use shows no subscriber. -/
theorem Topic.bind_inUse? (t : Topic) (client : String) :
    (t.inUse?.bind fun t => t.subscribers.get? client) = t.subscribers.get? client := by
  unfold inUse?
  split
  · next none => rw [KeyMap.isEmpty_iff.1 none client, Option.bind_none]
  · rfl

theorem Topic.filter_used (t : Topic) :
    ((some t).filter fun t => !t.subscribers.isEmpty) = t.inUse? := by
  unfold inUse?
  cases h : t.subscribers.isEmpty <;> simp [Option.filter, h]

theorem qos?_subscribe (filter client : String) (qos : QoS) (filter' client' : String) :
    (b.subscribe filter client qos).1.qos? filter' client' =
      if Filter.isValid filter = true ∧ filter = filter' ∧ client = client' then some qos
      else b.qos? filter' client' := by
  unfold subscribe
  by_cases valid : Filter.isValid filter = true
  · rw [if_pos valid]
    show ((b.filters.insert filter _).get? filter').bind _ = _
    rw [KeyMap.get?_insert]
    by_cases here : filter = filter'
    · subst here
      rw [if_pos rfl]
      show (((b.filters.get? filter).getD (.new filter)).subscribers.insert client qos).get? client' = _
      rw [KeyMap.get?_insert]
      by_cases same : client = client'
      · rw [if_pos same, if_pos ⟨valid, rfl, same⟩]
      · -- a filter that is not known yet has no other subscribers
        rw [if_neg same, if_neg fun all => same all.2.2, qos?]
        cases b.filters.get? filter <;> rfl
    · rw [if_neg here, if_neg fun all => here all.2.1]
      rfl
  · rw [if_neg valid, if_neg fun all => valid all.1]

theorem qos?_unsubscribe (filter client filter' client' : String) :
    (b.unsubscribe filter client).qos? filter' client' =
      if filter = filter' ∧ client = client' then none else b.qos? filter' client' := by
  unfold unsubscribe
  cases found : b.filters.get? filter with
  | none =>
    dsimp only
    split
    · next same => rw [qos?, ← same.1, found, Option.bind_none]
    · rfl
  | some t =>
    show ((b.filters.put filter (t.unsubscribe client).inUse?).get? filter').bind _ = _
    rw [KeyMap.get?_put]
    by_cases here : filter = filter'
    · subst here
      rw [if_pos rfl, Topic.bind_inUse?]
      show (t.subscribers.erase client).get? client' = _
      rw [KeyMap.get?_erase, qos?, found]
      by_cases same : client = client'
      · rw [if_pos same, if_pos ⟨rfl, same⟩]
      · rw [if_neg same, if_neg fun both => same both.2, Option.bind_some]
    · rw [if_neg here, if_neg fun both => here both.1]
      rfl

theorem qos?_cleanup (now : Int64) (client : String) (graceful : Bool) (filter client' : String) :
    (b.cleanup now client graceful).1.qos? filter client' =
      if client = client' then none else b.qos? filter client' := by
  have struck : ∀ r : Retained, Broker.qos? ⟨b.clients.erase client,
      (b.filters.mapValues fun _ t => t.unsubscribe client).filter fun _ t =>
        !t.subscribers.isEmpty, r⟩ filter client' =
      if client = client' then none else b.qos? filter client' := by
    intro r
    show (((b.filters.mapValues _).filter _).get? filter).bind _ = _
    rw [KeyMap.get?_filter, KeyMap.get?_mapValues, qos?]
    cases b.filters.get? filter with
    | none => rw [Option.map_none, Option.filter_none, Option.bind_none, ite_self]
    | some t =>
      rw [Option.map_some, Topic.filter_used, Topic.bind_inUse?]
      exact KeyMap.get?_erase ..
  unfold cleanup
  dsimp only
  split <;> exact struck _

theorem subscribed_subscribe (filter client : String) (qos : QoS) (filter' client' : String) :
    (b.subscribe filter client qos).1.subscribed filter' client' =
      (b.subscribed filter' client' ||
        decide (Filter.isValid filter = true ∧ filter = filter' ∧ client = client')) := by
  unfold subscribed
  rw [qos?_subscribe]
  split
  · next all => rw [Option.isSome_some, decide_eq_true all, Bool.or_true]
  · next other => rw [decide_eq_false other, Bool.or_false]

theorem subscribed_unsubscribe (filter client filter' client' : String) :
    (b.unsubscribe filter client).subscribed filter' client' =
      (b.subscribed filter' client' && !decide (filter = filter' ∧ client = client')) := by
  unfold subscribed
  rw [qos?_unsubscribe]
  split
  · next both => simp [both]
  · next other => simp [other]

theorem subscribed_cleanup (now : Int64) (client : String) (graceful : Bool)
    (filter client' : String) :
    (b.cleanup now client graceful).1.subscribed filter client' =
      (b.subscribed filter client' && !decide (client = client')) := by
  unfold subscribed
  rw [qos?_cleanup]
  split
  · next same => simp [same]
  · next other => simp [other]

/-! ## The order of the filters -/

/-- Whether every filter is valid, kept under its own name, and has a subscriber. -/
def Filed : Prop :=
  ∀ filter t, b.filters.get? filter = some t →
    t.name = filter ∧ Filter.isValid filter = true ∧ t.subscribers.isEmpty = false

variable {b}

theorem filed_empty : (empty : Broker ι).Filed :=
  fun _ _ there => nomatch there

theorem Filed.subscribe (filed : b.Filed) (filter client : String) (qos : QoS) :
    (b.subscribe filter client qos).1.Filed := by
  unfold Broker.subscribe
  split
  · next valid =>
    intro filter' t there
    change (b.filters.insert filter _).get? filter' = some t at there
    rw [KeyMap.get?_insert] at there
    split at there
    · next here =>
      subst here
      cases there
      refine ⟨?_, valid, ?_⟩
      · show ((b.filters.get? filter).getD (.new filter)).name = filter
        cases found : b.filters.get? filter with
        | none => rfl
        | some t => exact (filed filter t found).1
      · -- the subscriber itself is there
        refine Bool.eq_false_iff.2 fun none => ?_
        have := KeyMap.isEmpty_iff.1 none client
        rw [show (Topic.subscribe _ client qos).subscribers = KeyMap.insert _ client qos from rfl,
          KeyMap.get?_insert, if_pos rfl] at this
        cases this
    · exact filed filter' t there
  · exact filed

theorem Filed.unsubscribe (filed : b.Filed) (filter client : String) :
    (b.unsubscribe filter client).Filed := by
  unfold Broker.unsubscribe
  cases found : b.filters.get? filter with
  | none => exact filed
  | some t =>
    obtain ⟨name, valid, -⟩ := filed filter t found
    intro filter' t' there
    change (b.filters.put filter _).get? filter' = some t' at there
    rw [KeyMap.get?_put] at there
    split at there
    · next here =>
      subst here
      unfold Topic.inUse? at there
      split at there
      · cases there
      · next used =>
        cases there
        exact ⟨name, valid, Bool.eq_false_iff.2 used⟩
    · exact filed filter' t' there

theorem Filed.cleanup (filed : b.Filed) (now : Int64) (client : String) (graceful : Bool) :
    (b.cleanup now client graceful).1.Filed := by
  have struck : ∀ r : Retained, Filed ⟨b.clients.erase client,
      (b.filters.mapValues fun _ t => t.unsubscribe client).filter fun _ t =>
        !t.subscribers.isEmpty, r⟩ := by
    intro r filter t' there
    change ((b.filters.mapValues _).filter _).get? filter = some t' at there
    rw [KeyMap.get?_filter, KeyMap.get?_mapValues, Option.filter_eq_some_iff,
      Option.map_eq_some_iff] at there
    obtain ⟨⟨t, found, rfl⟩, used⟩ := there
    obtain ⟨name, valid, -⟩ := filed filter t found
    exact ⟨name, valid, Bool.not_eq_true' _ ▸ used⟩
  unfold Broker.cleanup
  dsimp only
  split <;> exact struck _

/-- In good order, a client owns a topic just if it is listed below a filter that the
topic matches. -/
theorem Filed.owns_iff (filed : b.Filed) {topic client : String} :
    b.owns topic client = true ↔
      ∃ filter, Filter.topicMatches filter topic = true ∧ b.subscribed filter client = true := by
  unfold owns
  rw [List.any_eq_true]
  constructor
  · rintro ⟨t, there, owned⟩
    obtain ⟨⟨filter, t⟩, entry, rfl⟩ := List.mem_map.1 there
    have found := KeyMap.mem_entries_iff.1 entry
    obtain ⟨matching, listed⟩ := Bool.and_eq_true_iff.1 owned
    refine ⟨filter, ?_, ?_⟩
    · rw [Topic.covers, (filed filter t found).1] at matching
      exact matching
    · rw [subscribed, qos?, found]
      exact listed
  · rintro ⟨filter, matching, listed⟩
    obtain ⟨qos, listed⟩ := Option.isSome_iff_exists.1 listed
    obtain ⟨t, found, listed⟩ := Option.bind_eq_some_iff.1 listed
    refine ⟨t, List.mem_map.2 ⟨(filter, t), KeyMap.mem_entries_iff.2 found, rfl⟩, ?_⟩
    refine Bool.and_eq_true_iff.2 ⟨?_, KeyMap.contains_eq_true.2 ⟨qos, listed⟩⟩
    rw [Topic.covers, (filed filter t found).1]
    exact matching

variable (b)

/-- An ungraceful clean-up is a graceful one, and the publication of the will after it. -/
theorem cleanup_ungraceful (now : Int64) (client : String) :
    b.cleanup now client false =
      match (b.clients.get? client).bind Registration.will with
      | none => b.cleanup now client true
      | some w => (b.cleanup now client true).1.publish now w.toMessage := by
  unfold cleanup
  cases (b.clients.get? client).bind Registration.will <;> rfl

/-! ## The retained messages -/

@[simp] theorem retained_subscribe (filter client : String) (qos : QoS) :
    (b.subscribe filter client qos).1.retained = b.retained := by
  unfold subscribe
  split <;> rfl

/-! ## Posts -/

/-- The posts of some frames to each registered client of some. -/
def postsTo (who : String → Bool) (frames : List ServerFrame) : List (Post ι) :=
  (b.clients.entries.filter fun e => who e.1).flatMap fun e => frames.map fun f => ⟨e.2.inbox, f⟩

theorem postTo_eq (client : String) (frame : ServerFrame) :
    b.postTo client frame = b.postsTo (· = client) [frame] := by
  unfold postTo postsTo
  rw [KeyMap.filter_entries_key]
  cases b.clients.get? client <;> rfl

theorem posts_of_subscribe (filter client : String) (qos : QoS) :
    (b.subscribe filter client qos).2 = b.postsTo (· = client)
      (if Filter.isValid filter then (b.retained.matching filter).map .deliver
        else [.refused s!"invalid filter '{filter}'"]) := by
  unfold subscribe
  split
  · unfold postTo postsTo
    rw [KeyMap.filter_entries_key]
    cases b.clients.get? client with
    | none => exact List.flatMap_eq_nil_iff.2 fun _ _ => rfl
    | some r => simp [List.map_eq_flatMap, List.flatMap_assoc]
  · exact b.postTo_eq client _

end Broker

namespace Hub

variable (h : Hub)

@[simp] theorem broker_subscribe (filter client : String) (qos : QoS) :
    (h.subscribe filter client qos).broker = (h.broker.subscribe filter client qos).1 := rfl

@[simp] theorem broker_unsubscribe (filter client : String) :
    (h.unsubscribe filter client).broker = h.broker.unsubscribe filter client := rfl

@[simp] theorem broker_publish (m : Message) :
    (h.publish m).broker = (h.broker.publish h.now m).1 := rfl

@[simp] theorem broker_cleanup (client : String) (graceful : Bool) :
    (h.cleanup client graceful).broker = (h.broker.cleanup h.now client graceful).1 := rfl

@[simp] theorem broker_register (client : String) (will : Option Will) :
    (h.register client will).1.broker = h.broker.register client ⟨h.nextInbox, will⟩ := rfl

@[simp] theorem broker_closeInbox (inbox : Nat) : (h.closeInbox inbox).broker = h.broker := rfl

@[simp] theorem broker_take (inbox : Nat) : (h.take inbox).1.broker = h.broker := by
  unfold take
  split <;> rfl

end Hub

end TopicMesh
