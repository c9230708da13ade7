import Mathlib.Data.List.Nodup
import TopicMesh.Proofs.Node.Mooring

/-!
# Records and callbacks in the course of calls

A move changes no record but that of a topic which it joins, opens or ends, and none of
the node's notes.  So a record that nobody touches stays, and stays subscribed at the
broker (`Held`); and a topic that is not subscribed stays so (`Rid`).

The callbacks of a record are told apart by their requests (`Distinct`), and each of them
came by a move that let it join (`Course.hasOnly`).
-/

namespace TopicMesh

open Node Act

namespace Node

/-- Whether only some callbacks are in the records of some topics. -/
def HasOnly (Q : String → Callback → Prop) (n : Node) : Prop :=
  ∀ topic record, n.subscriptions.get? topic = some record → ∀ c ∈ record.callbacks, Q topic c

/-- Whether no callback is twice in a record, and no two of a record are of one request. -/
def Distinct (n : Node) : Prop :=
  ∀ topic record, n.subscriptions.get? topic = some record → record.callbacks.Nodup ∧
    ∀ c ∈ record.callbacks, ∀ c' ∈ record.callbacks, c.request = c'.request →
      c.request.isSome = true → c = c'

end Node

theorem Subscription.mem_join {record : Subscription Callback} {c callback : Callback}
    (h : c ∈ (record.join callback).callbacks) : c ∈ record.callbacks ∨ c = callback := by
  unfold join at h
  split at h
  · exact .inl h
  · exact (List.mem_append.1 h).imp_right List.mem_singleton.1

theorem Subscription.nodup_join {record : Subscription Callback} (callback : Callback)
    (nodup : record.callbacks.Nodup) : (record.join callback).callbacks.Nodup := by
  unfold join
  split
  · exact nodup
  · next new =>
    refine List.nodup_append.2 ⟨nodup, List.nodup_singleton _, fun c there c' here same => ?_⟩
    rw [List.mem_singleton.1 here] at same
    exact new (same ▸ there)

namespace Station

variable {L : License} {s s' : Station}

/-- What a move leaves as it is. -/
theorem Move.notes (move : Move L s s') :
    s'.node.finished = s.node.finished ∧ s'.node.chores = s.node.chores ∧
      s'.node.invoked = s.node.invoked ∧ s'.node.nextRequest = s.node.nextRequest := by
  cases move <;> exact ⟨rfl, rfl, rfl, rfl⟩

/-- What a move leaves as it is unless the line comes or goes. -/
theorem Move.settled (move : Move L s s') (stays : ¬L.roams) :
    s'.node.line.inbox = s.node.line.inbox ∧ s'.node.replySequences = s.node.replySequences := by
  cases move with
  | emptied _ may => exact absurd may stays
  | attached may => exact absurd may stays
  | detached _ may => exact absurd may stays
  | lost _ may => exact absurd may stays
  | forgot may => exact absurd may stays
  | _ => exact ⟨rfl, rfl⟩

theorem Course.notes (course : Course L s s') :
    s'.node.finished = s.node.finished ∧ s'.node.chores = s.node.chores ∧
      s'.node.invoked = s.node.invoked ∧ s'.node.nextRequest = s.node.nextRequest := by
  induction course with
  | refl => exact ⟨rfl, rfl, rfl, rfl⟩
  | tail _ move ih =>
    obtain ⟨finished, chores, invoked, next⟩ := move.notes
    exact ⟨finished.trans ih.1, chores.trans ih.2.1, invoked.trans ih.2.2.1, next.trans ih.2.2.2⟩

theorem Course.settled (course : Course L s s') (stays : ¬L.roams) :
    s'.node.line.inbox = s.node.line.inbox ∧ s'.node.replySequences = s.node.replySequences := by
  induction course with
  | refl => exact ⟨rfl, rfl⟩
  | tail _ move ih =>
    obtain ⟨inbox, sequences⟩ := move.settled stays
    exact ⟨inbox.trans ih.1, sequences.trans ih.2⟩

/-- No move makes up a number for answers. -/
theorem Course.unnumbered (course : Course L s s') {topic : String}
    (none_yet : s.node.replySequences.get? topic = none) :
    s'.node.replySequences.get? topic = none := by
  refine course.keeps (P := fun s => s.node.replySequences.get? topic = none)
    (fun s s' move none_yet => ?_) none_yet
  cases move with
  | forgot => rfl
  | _ => exact none_yet

/-! ## Callbacks -/

/-- The records after a move: old ones, records that a callback joined, and new ones. -/
theorem Move.records (move : Move L s s') {topic : String} {record : Subscription Callback}
    (found : s'.node.subscriptions.get? topic = some record) :
    s.node.subscriptions.get? topic = some record ∨
      (∃ callback record', L.joins topic callback ∧
        s.node.subscriptions.get? topic = some record' ∧ record = record'.join callback) ∨
      ∃ callback, L.joins topic callback ∧ record.callbacks = [callback] := by
  cases move with
  | joined t callback record' found' may =>
    rcases get?_withRecord_eq_some found with ⟨rfl, rfl⟩ | old
    · exact .inr (.inl ⟨callback, record', may, found', rfl⟩)
    · exact .inl old
  | opened t callback endpoint qos advertised network up fresh may =>
    rcases get?_withRecord_eq_some found with ⟨rfl, rfl⟩ | old
    · exact .inr (.inr ⟨callback, may, rfl⟩)
    · exact .inl old
  | closed t record' network => exact .inl (get?_of_withoutRecord found)
  | emptied => cases found
  | _ => exact .inl found

theorem Move.hasOnly {Q : String → Callback → Prop} (move : Move L s s')
    (joins : ∀ topic c, L.joins topic c → Q topic c) (only : s.node.HasOnly Q) :
    s'.node.HasOnly Q := by
  intro topic record found c there
  rcases move.records found with old | ⟨callback, record', may, old, rfl⟩ | ⟨callback, may, same⟩
  · exact only topic record old c there
  · rcases Subscription.mem_join there with there | rfl
    · exact only topic record' old c there
    · exact joins topic c may
  · rw [same] at there
    obtain rfl := List.mem_singleton.1 there
    exact joins topic c may

theorem Course.hasOnly {Q : String → Callback → Prop} (course : Course L s s')
    (joins : ∀ topic c, L.joins topic c → Q topic c) (only : s.node.HasOnly Q) :
    s'.node.HasOnly Q :=
  course.keeps (P := fun s => s.node.HasOnly Q) (fun _ _ move only => move.hasOnly joins only) only

/-- Callbacks stay distinct if each newcomer is the only one of its request. -/
theorem Course.distinct {A : Callback → Prop} (course : Course L s s')
    (joins : ∀ topic c, L.joins topic c → A c ∧
      ∀ c', A c' → c'.request = c.request → c.request.isSome = true → c' = c)
    (only : s.node.HasOnly fun _ => A) (distinct : s.node.Distinct) : s'.node.Distinct := by
  refine (course.keeps (P := fun s => (s.node.HasOnly fun _ => A) ∧ s.node.Distinct)
    (fun s s' move both => ⟨move.hasOnly (fun t c may => (joins t c may).1) both.1, ?_⟩)
    ⟨only, distinct⟩).2
  obtain ⟨only, distinct⟩ := both
  intro topic record found
  rcases move.records found with old | ⟨callback, record', may, old, rfl⟩ | ⟨callback, may, same⟩
  · exact distinct topic record old
  · obtain ⟨nodup, apart⟩ := distinct topic record' old
    have alone := (joins topic callback may).2
    refine ⟨Subscription.nodup_join callback nodup, fun c here c' here' same numbered => ?_⟩
    rcases Subscription.mem_join here with was | rfl <;>
      rcases Subscription.mem_join here' with was' | rfl
    · exact apart c was c' was' same numbered
    · exact alone c (only topic record' old c was) same (same ▸ numbered)
    · exact (alone c' (only topic record' old c' was') same.symm numbered).symm
    · rfl
  · rw [same]
    refine ⟨List.nodup_singleton _, fun c here c' here' _ _ => ?_⟩
    rw [List.mem_singleton.1 here, List.mem_singleton.1 here']

/-! ## One record -/

/-- A topic that nobody joins gets no record. -/
theorem Course.free (course : Course L s s') {topic : String} (joins : ∀ c, ¬L.joins topic c)
    (free : s.node.subscriptions.get? topic = none) :
    s'.node.subscriptions.get? topic = none := by
  refine course.keeps (P := fun s => s.node.subscriptions.get? topic = none)
    (fun s s' move free => Option.eq_none_iff_forall_ne_some.2 fun record found => ?_) free
  rcases move.records found with old | ⟨callback, -, may, -⟩ | ⟨callback, may, -⟩
  · rw [free] at old
    cases old
  · exact joins callback may
  · exact joins callback may

/-- Whether a topic has a record, and the node is subscribed at the broker. -/
def Held (s : Station) (topic : String) (record : Subscription Callback) : Prop :=
  s.node.subscriptions.get? topic = some record ∧
    s.hub.broker.subscribed topic s.node.id = true

/-- Whether a topic has neither a record nor a subscription at the broker. -/
def Rid (s : Station) (topic : String) : Prop :=
  s.node.subscriptions.get? topic = none ∧ s.hub.broker.subscribed topic s.node.id = false

/-- Both depend on the records and on the broker's list alone. -/
theorem held_congr {topic : String} (subscriptions : s'.node.subscriptions = s.node.subscriptions)
    (id : s'.node.id = s.node.id)
    (listed : s'.hub.broker.subscribed topic s.node.id = s.hub.broker.subscribed topic s.node.id)
    (record : Subscription Callback) : s'.Held topic record ↔ s.Held topic record := by
  unfold Held
  rw [subscriptions, id, listed]

theorem rid_congr {topic : String} (subscriptions : s'.node.subscriptions = s.node.subscriptions)
    (id : s'.node.id = s.node.id)
    (listed : s'.hub.broker.subscribed topic s.node.id = s.hub.broker.subscribed topic s.node.id) :
    s'.Rid topic ↔ s.Rid topic := by
  unfold Rid
  rw [subscriptions, id, listed]

theorem Move.get?_of_untouched (move : Move L s s') {topic : String} (stays : ¬L.roams)
    (joins : ∀ c, ¬L.joins topic c) (ends : ¬L.ends topic) :
    s'.node.subscriptions.get? topic = s.node.subscriptions.get? topic := by
  cases move with
  | joined t callback record found may =>
    have other : t ≠ topic := fun same => joins callback (same ▸ may)
    exact (get?_withRecord ..).trans (if_neg other)
  | opened t callback endpoint qos advertised network up fresh may =>
    have other : t ≠ topic := fun same => joins callback (same ▸ may)
    exact (get?_withRecord ..).trans (if_neg other)
  | closed t record network found may =>
    have other : t ≠ topic := fun same => ends (same ▸ may)
    exact (get?_withoutRecord ..).trans (if_neg other)
  | emptied _ may => exact absurd may stays
  | _ => rfl

/-- A record that no move touches stays. -/
theorem Move.held (move : Move L s s') {topic : String} {record : Subscription Callback}
    (stays : ¬L.roams) (joins : ∀ c, ¬L.joins topic c) (ends : ¬L.ends topic)
    (held : s.Held topic record) : s'.Held topic record :=
  ⟨(move.get?_of_untouched stays joins ends).trans held.1,
    move.subscribed_of_spared stays (fun _ _ => ends) held.2⟩

/-- A topic that nobody joins stays without a record. -/
theorem Move.rid (move : Move L s s') {topic : String} (stays : ¬L.roams)
    (joins : ∀ c, ¬L.joins topic c) (plain : topic ≠ s.node.config.discovery.filter)
    (rid : s.Rid topic) : s'.Rid topic := by
  obtain ⟨absent, unlisted⟩ := rid
  unfold Rid
  rw [move.id]
  cases move with
  | renewed filter qos up known =>
    refine ⟨absent, ?_⟩
    have other : filter ≠ topic := by
      rintro rfl
      rcases known with same | ⟨record, found, -⟩
      · exact plain same
      · rw [absent] at found
        cases found
    rw [Hub.broker_subscribe, Broker.subscribed_subscribe, unlisted,
      decide_eq_false fun all => other all.2.1]
    rfl
  | joined t callback record found may =>
    have other : t ≠ topic := fun same => joins callback (same ▸ may)
    exact ⟨(get?_withRecord ..).trans ((if_neg other).trans absent), unlisted⟩
  | opened t callback endpoint qos advertised network up fresh may =>
    have other : t ≠ topic := fun same => joins callback (same ▸ may)
    refine ⟨(get?_withRecord ..).trans ((if_neg other).trans absent), ?_⟩
    rw [subscribed_hubWith, unlisted, decide_eq_false fun all => other all.2.2.1]
    rfl
  | closed t record network found may =>
    have other : t ≠ topic := by
      rintro rfl
      rw [absent] at found
      cases found
    refine ⟨(get?_withoutRecord ..).trans ((if_neg other).trans absent), ?_⟩
    rw [closed_hub, subscribed_hubWithout, unlisted]
    rfl
  | emptied _ may => exact absurd may stays
  | attached may => exact absurd may stays
  | detached _ may => exact absurd may stays
  | lost _ may => exact absurd may stays
  | _ => exact ⟨absent, unlisted⟩

theorem Course.held (course : Course L s s') {topic : String} {record : Subscription Callback}
    (stays : ¬L.roams) (joins : ∀ c, ¬L.joins topic c) (ends : ¬L.ends topic)
    (held : s.Held topic record) : s'.Held topic record :=
  course.keeps (P := fun s => s.Held topic record)
    (fun _ _ move held => move.held stays joins ends held) held

theorem Course.rid (course : Course L s s') {topic : String} (stays : ¬L.roams)
    (joins : ∀ c, ¬L.joins topic c) (plain : topic ≠ s.node.config.discovery.filter)
    (rid : s.Rid topic) : s'.Rid topic :=
  (course.keeps (P := fun t => t.node.config = s.node.config ∧ t.Rid topic)
    (fun _ _ move both => ⟨move.config.trans both.1,
      move.rid stays joins (both.1 ▸ plain) both.2⟩) ⟨rfl, rid⟩).2

end Station

end TopicMesh
