import TopicMesh.Proofs.Node.Serving

/-!
# The copies of what a node serves

The subscriptions of a node, what it is about to announce and the announcement that
the broker keeps are three copies of one fact.  `Consistent` says how they agree,
given what is left over from the past: the topics that are about to be announced and
not served (the orphans), and whether an announcement is kept that should be gone (the
outlived one).

Every call keeps the copies consistent, and changes what is left over: one lemma for
each call says how.
-/

namespace TopicMesh.Station

open Node Act

/-! ## The invariant -/

variable {s s' : Station} {orphan orphan' : String → Prop} {outlived outlived' : Prop}

/-- Whether the broker keeps the announcement of what the node is about to announce; if
that is nothing, it may also keep none, or a farewell. -/
def AnnouncesOwn (s : Station) : Prop :=
  if s.node.discovery.advertised.isEmpty then s.announced = .empty
  else s.kept = some s.node.ownAnnouncement.toPack.write

theorem announcesOwn_iff_of_empty (empty : s.node.discovery.advertised.isEmpty = true) :
    s.AnnouncesOwn ↔ s.announced = .empty := by
  rw [AnnouncesOwn, if_pos empty]

theorem announcesOwn_iff_of_advertised (advertised : ¬s.node.discovery.advertised.isEmpty = true) :
    s.AnnouncesOwn ↔ s.kept = some s.node.ownAnnouncement.toPack.write := by
  rw [AnnouncesOwn, if_neg advertised]

/-- How the three copies agree, given which topics are orphaned and whether the
announcement is outlived. -/
structure Consistent (orphan : String → Prop) (outlived : Prop) (s : Station) : Prop where
  steady : s.Steady
  attached : s.Attached
  announceable : s.node.Announceable
  host : Announcement.TextFits s.node.config.discovery.host
  /-- What is served is about to be announced. -/
  offered : ∀ topic c, s.served topic = some c → s.node.discovery.advertised.get? topic = some c
  /-- What else is about to be announced is orphaned. -/
  orphans : ∀ topic, s.served topic = none →
    (s.node.discovery.advertised.get? topic ≠ none ↔ orphan topic)
  gone : ∀ topic, orphan topic → s.served topic = none
  own : s.isConnected = true → ¬outlived → s.AnnouncesOwn
  stale : outlived → s.isConnected = true ∧
    s.node.discovery.advertised.isEmpty = true ∧ s.announced ≠ .empty

theorem Consistent.congr (h : Consistent orphan outlived s)
    (orphans : ∀ topic, orphan topic ↔ orphan' topic) (outlives : outlived ↔ outlived') :
    Consistent orphan' outlived' s := by
  obtain rfl : orphan = orphan' := funext fun topic => propext (orphans topic)
  obtain rfl : outlived = outlived' := propext outlives
  exact h

/-- What is empty serves nothing and has no orphans. -/
theorem Consistent.of_isEmpty (h : Consistent orphan outlived s)
    (empty : s.node.discovery.advertised.isEmpty = true) (topic : String) :
    s.served topic = none ∧ ¬orphan topic := by
  have none_offered := KeyMap.isEmpty_iff.1 empty topic
  have none_served : s.served topic = none := by
    cases hs : s.served topic with
    | none => rfl
    | some c =>
      rw [h.offered topic c hs] at none_offered
      cases none_offered
  exact ⟨none_served, fun o => (h.orphans topic none_served).2 o none_offered⟩

/-- Something to announce is kept as it is announced. -/
theorem Consistent.kept_of_advertised (h : Consistent orphan outlived s)
    (up : s.isConnected = true) {topic : String} {c : Capability}
    (advertised : s.node.discovery.advertised.get? topic = some c) :
    s.kept = some s.node.ownAnnouncement.toPack.write := by
  have nonempty : ¬s.node.discovery.advertised.isEmpty = true := fun empty =>
    Option.some_ne_none c (advertised.symm.trans (KeyMap.isEmpty_iff.1 empty topic))
  exact (announcesOwn_iff_of_advertised nonempty).1 (h.own up fun o => nonempty (h.stale o).2.1)

theorem Consistent.isEmpty_of (h : Consistent orphan outlived s)
    (nothing : ∀ topic, s.served topic = none ∧ ¬orphan topic) :
    s.node.discovery.advertised.isEmpty = true :=
  KeyMap.isEmpty_iff.2 fun topic => Classical.byContradiction fun ne =>
    (nothing topic).2 ((h.orphans topic (nothing topic).1).1 ne)

/-! ## The start -/

/-- Whether a node that has just been made is attached to a hub that does not know it
yet. -/
structure Starting (s : Station) : Prop where
  steady : s.Steady
  node : s.node = .new s.node.config
  unknown : s.hub.broker.clients.get? s.node.id = none
  silent : s.kept = none

theorem consistent_start (starting : Starting s) (host : s.node.config.discovery.host ≠ "")
    (short : Announcement.TextFits s.node.config.discovery.host) :
    Consistent (fun _ => False) False s := by
  have subscriptions : s.node.subscriptions = .empty := by rw [starting.node]; rfl
  have advertised : s.node.discovery.advertised = .empty := by rw [starting.node]; rfl
  have line : s.node.line = .new s.node.id := by rw [starting.node]; rfl
  have served : ∀ topic, s.served topic = none := by
    intro topic
    refine served_of_none ?_
    rw [subscriptions]
    rfl
  have attached : s.Attached :=
    attached_of_lost (by rw [line]; rfl) (by rw [line]; rfl) starting.unknown
  have lost : s.isConnected = false := by
    rw [isConnected_eq_isSome attached, line]
    rfl
  refine ⟨starting.steady, attached, ⟨host, ?_⟩, short, ?_, ?_, fun _ => False.elim, ?_, False.elim⟩
  · intro topic ht
    rw [advertised] at ht
    cases ht
  · intro topic c hs
    rw [served] at hs
    cases hs
  · intro topic _
    rw [advertised]
    exact ⟨fun ne => ne rfl, False.elim⟩
  · intro up
    rw [lost] at up
    cases up

/-! ## What is announced -/

theorem announcesOwn_of_kept (ok : s.node.Announceable)
    (host : Announcement.TextFits s.node.config.discovery.host)
    (kept : s.kept = some s.node.ownAnnouncement.toPack.write) : s.AnnouncesOwn := by
  unfold AnnouncesOwn
  split
  · next empty =>
    have none_carried : s.node.ownAnnouncement.carried = .empty := KeyMap.eq_empty_of_isEmpty empty
    have fits : s.node.ownAnnouncement.Fits := by
      refine ⟨host, ?_, ?_⟩
      · rw [none_carried]
        decide
      · rw [none_carried]
        intro e he
        cases he
    rw [announced, kept, announcedIn_write fits ok.host ok.keys, none_carried]
  · exact kept

theorem ownAnnouncement_congr {n n' : Node} (config : n'.config = n.config)
    (advertised : n'.discovery.advertised = n.discovery.advertised) :
    n'.ownAnnouncement = n.ownAnnouncement := by
  unfold ownAnnouncement Discovery.own
  rw [config, advertised]

theorem kept_publish_announcement (hub : Hub) (n : Node) :
    (hub.publish n.announcement).kept n.config.discovery.nodeTopic =
      some n.ownAnnouncement.toPack.write := by
  have nonempty : (n.announcement.payload).isEmpty = false :=
    List.isEmpty_eq_false_iff.2 (Announcement.write_ne_nil n.ownAnnouncement)
  rw [Hub.kept_publish, if_pos ⟨rfl, rfl⟩, nonempty]
  rfl

/-! ## What fades -/

theorem consistent_calm (h : Consistent orphan outlived s) (calm : Calm s s') :
    Consistent orphan outlived s' := by
  have announced : s'.announced = s.announced := by
    unfold Station.announced
    rw [calm.kept]
  refine ⟨calm.steady, calm.attached h.attached, calm.announceable h.announceable, ?_, ?_, ?_, ?_,
    ?_, ?_⟩
  · rw [calm.config]
    exact h.host
  · intro topic c hs
    rw [calm.served] at hs
    rw [calm.advertised]
    exact h.offered topic c hs
  · intro topic hs
    rw [calm.served] at hs
    rw [calm.advertised]
    exact h.orphans topic hs
  · intro topic o
    rw [calm.served]
    exact h.gone topic o
  · intro up fresh
    rw [calm.isConnected h.attached] at up
    have own := h.own up fresh
    unfold AnnouncesOwn at own ⊢
    rw [calm.advertised, announced, calm.kept, ownAnnouncement_congr calm.config calm.advertised]
    exact own
  · intro o
    rw [calm.isConnected h.attached, calm.advertised, announced]
    exact h.stale o

/-- What an end of an advertised subscription makes of a station. -/
theorem unsubscribed_eq {topic : String} {record : Subscription Callback}
    (h : Consistent orphan outlived s) (found : s.node.subscriptions.get? topic = some record)
    (advertised : record.advertised = true) (network : DirectNetwork) :
    let n := (s.node.withoutRecord topic).withAdvertised (s.node.discovery.advertised.erase topic)
    let hub := hubWithout s s.hub topic record.endpoint
    unsubscribed s topic record network =
      ⟨n, if s.isConnected then hub.publish n.announcement else hub, network, s.outage⟩ := by
  intro n hub
  have served : s.served topic = some (capability record) := by
    rw [served_of_get? found, advertised]
    rfl
  have contains : s.node.discovery.advertised.contains topic = true := by
    rw [KeyMap.contains, h.offered topic _ served]
    rfl
  exact if_pos ⟨advertised, contains⟩

theorem consistent_ended (h : Consistent orphan outlived s) {topic : String}
    {record : Subscription Callback} (found : s.node.subscriptions.get? topic = some record)
    (advertised : record.advertised = true) (network : DirectNetwork) :
    Consistent orphan outlived (unsubscribed s topic record network) := by
  have attached := attached_unsubscribed h.attached topic record network
  have connected := isConnected_unsubscribed h.attached topic record network
  rw [unsubscribed_eq h found advertised network] at attached connected ⊢
  let n := (s.node.withoutRecord topic).withAdvertised (s.node.discovery.advertised.erase topic)
  let hub := hubWithout s s.hub topic record.endpoint
  let after : Station :=
    ⟨n, if s.isConnected then hub.publish n.announcement else hub, network, s.outage⟩
  have served_topic : s.served topic = some (capability record) := by
    rw [served_of_get? found, advertised]
    rfl
  have served_after : ∀ other, after.served other = if topic = other then none else s.served other :=
    served_withoutRecord topic _ network _
  have announceable : after.node.Announceable :=
    announceable_erase (n := s.node.withoutRecord topic) ⟨h.announceable.host,
      h.announceable.keys⟩ topic
  have get_after : ∀ other, after.node.discovery.advertised.get? other =
      if topic = other then none else s.node.discovery.advertised.get? other :=
    KeyMap.get?_erase s.node.discovery.advertised topic
  refine ⟨h.steady, attached, announceable, h.host, ?_, ?_, ?_, ?_, ?_⟩
  · intro other c hs
    rw [served_after] at hs
    rw [get_after]
    split at hs
    · cases hs
    · next ne =>
      rw [if_neg ne]
      exact h.offered other c hs
  · intro other hs
    rw [served_after] at hs
    rw [get_after]
    by_cases same : topic = other
    · subst same
      rw [if_pos rfl]
      have : ¬orphan topic := fun o => by
        rw [h.gone topic o] at served_topic
        cases served_topic
      simp [this]
    · rw [if_neg same] at hs ⊢
      exact h.orphans other hs
  · intro other o
    rw [served_after, h.gone other o, ite_self]
  · intro up _
    rw [connected] at up
    refine announcesOwn_of_kept announceable h.host ?_
    show (if s.isConnected then hub.publish n.announcement else hub).kept _ = _
    rw [if_pos up]
    exact kept_publish_announcement hub n
  · intro o
    obtain ⟨-, empty, -⟩ := h.stale o
    rw [(h.of_isEmpty empty topic).1] at served_topic
    cases served_topic

theorem consistent_fades (h : Consistent orphan outlived s) (fades : Fades s s') :
    Consistent orphan outlived s' := by
  induction fades with
  | calm calm => exact consistent_calm h calm
  | ended network found advertised => exact consistent_ended h found advertised network
  | trans _ _ ih ih' => exact ih' (ih h)

/-! ## Subscribing -/

theorem served_subscribed {topic : String} {record : Subscription Callback}
    (advertised : record.advertised = true) (network : DirectNetwork) (other : String) :
    (subscribed s topic record network).served other =
      if topic = other then some (capability record) else s.served other := by
  rw [subscribed_of_advertised advertised, served_withRecord, advertised, if_pos rfl]

theorem consistent_subscribed (h : Consistent orphan outlived s) {topic : String}
    {record : Subscription Callback} (plain : isReservedKey topic = false)
    (advertised : record.advertised = true) (network : DirectNetwork) :
    Consistent (fun other => orphan other ∧ topic ≠ other) False
      (subscribed s topic record network) := by
  have served_after : ∀ other, (subscribed s topic record network).served other =
      if topic = other then some (capability record) else s.served other :=
    served_subscribed advertised network
  let n := (s.node.withRecord topic record).withAdvertised
    (s.node.discovery.advertised.insert topic (capability record))
  let hub := hubWith s topic record.qos record.endpoint
  let after : Station := ⟨n, hub.publish n.announcement, network, s.outage⟩
  have is_after : subscribed s topic record network = after :=
    subscribed_of_advertised advertised network
  rw [is_after] at served_after ⊢
  have attached : after.Attached := is_after ▸ attached_subscribed h.attached topic record network
  have announceable : after.node.Announceable :=
    announceable_insert (n := s.node.withRecord topic record) ⟨h.announceable.host,
      h.announceable.keys⟩ plain _
  have get_after : ∀ other, after.node.discovery.advertised.get? other =
      if topic = other then some (capability record)
      else s.node.discovery.advertised.get? other := fun other =>
    KeyMap.get?_insert s.node.discovery.advertised topic other (capability record)
  refine ⟨h.steady, attached, announceable, h.host, ?_, ?_, ?_, ?_, False.elim⟩
  · intro other c hs
    rw [served_after] at hs
    rw [get_after]
    split at hs
    · next same => rw [if_pos same, hs]
    · next ne =>
      rw [if_neg ne]
      exact h.offered other c hs
  · intro other hs
    rw [served_after] at hs
    rw [get_after]
    split at hs
    · cases hs
    · next ne =>
      rw [if_neg ne, h.orphans other hs]
      exact ⟨fun o => ⟨o, ne⟩, And.left⟩
  · rintro other ⟨o, ne⟩
    rw [served_after, if_neg ne, h.gone other o]
  · intro _ _
    exact announcesOwn_of_kept announceable h.host (kept_publish_announcement hub n)

/-! ## Joining and leaving -/

theorem kept_renewed (client : String) (topics : List (String × QoS)) (hub : Hub) (topic : String) :
    (renewed client topics hub).kept topic = hub.kept topic :=
  renewed_keeps (P := fun h => h.kept topic = hub.kept topic) rfl
    fun _ same _ _ => (Hub.kept_subscribe ..).trans same

theorem kept_joined (topic : String) : (joined s).hub.kept topic = s.hub.kept topic := by
  cases h : s.node.line.inbox with
  | some inbox => rw [joined_of_connected h]
  | none =>
    rw [joined_of_lost h]
    exact Hub.kept_register ..

theorem kept_hubJoined :
    (hubJoined s).kept s.node.config.discovery.nodeTopic =
      if s.node.discovery.advertised.isEmpty then s.kept
      else some s.node.ownAnnouncement.toPack.write := by
  unfold hubJoined
  dsimp only
  split
  · rw [Hub.kept_subscribe, kept_renewed, kept_joined]
    rfl
  · exact kept_publish_announcement ..

theorem kept_rejoined :
    Station.kept { joined s with hub := hubJoined s } =
      if s.node.discovery.advertised.isEmpty then s.kept
      else some s.node.ownAnnouncement.toPack.write := by
  obtain ⟨config, -⟩ := joined_keeps s
  show (hubJoined s).kept (joined s).node.config.discovery.nodeTopic = _
  rw [config]
  exact kept_hubJoined

/-- A node that has joined has announced what it serves; who serves nothing has not
outlived an announcement, unless one was kept while the line was down. -/
theorem announcesOwn_rejoined (h : Consistent orphan outlived s) (fresh : ¬outlived)
    (kept_down : s.isConnected = false → s.node.discovery.advertised.isEmpty = true →
      s.announced = .empty) :
    AnnouncesOwn { joined s with hub := hubJoined s } := by
  obtain ⟨config, -, discovery, -⟩ := joined_keeps s
  by_cases empty : s.node.discovery.advertised.isEmpty = true
  · -- nothing is announced: what is kept stays
    have same : announced { joined s with hub := hubJoined s } = s.announced := by
      rw [announced, kept_rejoined, if_pos empty]
      rfl
    refine (announcesOwn_iff_of_empty (discovery ▸ empty)).2 (same.trans ?_)
    cases up : s.isConnected with
    | true => exact (announcesOwn_iff_of_empty empty).1 (h.own up fresh)
    | false => exact kept_down up empty
  · refine (announcesOwn_iff_of_advertised (discovery ▸ empty)).2 ?_
    rw [kept_rejoined, if_neg empty,
      ownAnnouncement_congr config (congrArg Discovery.advertised discovery)]

/-- Joining keeps the orphans.  An announcement that was kept while the line was down is
outlived if there is nothing to announce. -/
theorem consistent_connect (h : Consistent orphan outlived s) :
    (after Node.connect s).isConnected = true ∧
      Consistent orphan
        ((s.isConnected = false ∧ s.announced ≠ .empty ∧
            ∀ topic, s.served topic = none ∧ ¬orphan topic) ∨ outlived)
        (after Node.connect s) := by
  rw [after_ok (connect_ok h.steady h.attached h.announceable)]
  let after : Station := { joined s with hub := hubJoined s }
  obtain ⟨config, subscriptions, discovery, -⟩ := joined_keeps s
  have connected : after.isConnected = true := isConnected_rejoined h.attached
  have served : ∀ topic, after.served topic = s.served topic := by
    intro topic
    unfold Station.served
    rw [subscriptions]
  have announceable : after.node.Announceable :=
    ⟨by rw [config]; exact h.announceable.host, by rw [discovery]; exact h.announceable.keys⟩
  refine ⟨connected, h.steady, attached_rejoined h.attached, announceable,
    by rw [config]; exact h.host, ?_, ?_, ?_, ?_, ?_⟩
  · intro topic c hs
    rw [discovery]
    exact h.offered topic c (served topic ▸ hs)
  · intro topic hs
    rw [discovery]
    exact h.orphans topic (served topic ▸ hs)
  · intro topic o
    rw [served]
    exact h.gone topic o
  · intro _ fresh
    refine announcesOwn_rejoined h (fun o => fresh (.inr o)) fun down empty => ?_
    exact Classical.byContradiction fun ne =>
      fresh (.inl ⟨down, ne, fun topic => h.of_isEmpty empty topic⟩)
  · intro o
    have stale : s.node.discovery.advertised.isEmpty = true ∧ s.announced ≠ .empty := by
      rcases o with ⟨-, ne, nothing⟩ | o
      · exact ⟨h.isEmpty_of nothing, ne⟩
      · exact (h.stale o).2
    refine ⟨connected, by rw [discovery]; exact stale.1, ?_⟩
    rw [announced, kept_rejoined, if_pos stale.1]
    exact stale.2

/-- Leaving leaves nothing served.  With the line down, what was served is orphaned. -/
theorem consistent_disconnect (h : Consistent orphan outlived s) :
    (after Node.disconnect s).isConnected = false ∧
      Consistent
        (fun topic => s.isConnected = false ∧ (s.served topic ≠ none ∨ orphan topic)) False
        (after Node.disconnect s) := by
  obtain ⟨n, network, run, left⟩ := disconnect_ok h.steady h.attached h.announceable.host
  rw [after_ok run]
  let after : Station := ⟨n, hubLeft s, network, s.outage⟩
  have attached : after.Attached := attached_left h.attached left network
  have lost : after.isConnected = false := isConnected_left h.attached left network
  have served : ∀ topic, after.served topic = none := by
    intro topic
    refine served_of_none ?_
    show n.subscriptions.get? topic = none
    rw [left.subscriptions]
    rfl
  have announceable : n.Announceable := by
    refine ⟨by rw [left.config]; exact h.announceable.host, fun topic ht => ?_⟩
    rw [left.advertised] at ht
    split at ht
    · cases ht
    · exact h.announceable.keys topic ht
  refine ⟨lost, h.steady, attached, announceable, by rw [left.config]; exact h.host, ?_, ?_, ?_, ?_,
    False.elim⟩
  · intro topic c hs
    rw [served] at hs
    cases hs
  · intro topic _
    show n.discovery.advertised.get? topic ≠ none ↔ _
    rw [left.advertised]
    cases up : s.isConnected with
    | true => simp
    | false =>
      rw [if_neg Bool.false_ne_true]
      cases hs : s.served topic with
      | some c => simp [h.offered topic c hs]
      | none => simpa [hs] using h.orphans topic hs
  · exact fun topic _ => served topic
  · intro up
    rw [lost] at up
    cases up

/-- Losing the line changes nothing in what is served. -/
theorem consistent_abort (h : Consistent orphan outlived s) :
    (after Node.abort s).isConnected = false ∧ Consistent orphan False (after Node.abort s) := by
  obtain ⟨events, run⟩ := abort_ok s
  rw [after_ok run]
  have attached := attached_lost h.attached events
  have lost := isConnected_lost h.attached events
  refine ⟨lost, h.steady, attached, ⟨h.announceable.host, h.announceable.keys⟩, h.host, h.offered,
    h.orphans, h.gone, ?_, False.elim⟩
  intro up
  rw [lost] at up
  cases up

end TopicMesh.Station
