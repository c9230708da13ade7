import TopicMesh.Proofs.Mesh.Listeners
import TopicMesh.Proofs.Node.Consistency

/-!
# What a call means for those that listen

In its calls a node works at the hub, registers, takes leave and closes its own inbox
(`Touched`).  To a bystander that makes no difference (`Touched.bystander`): it stays
registered, what is kept for it stays, and it goes on to attend to everybody.

The caller itself attends to the others after each of its calls: if it stays, because
it only worked at the hub (`Works`); if it joins, because it subscribes the discovery
filter anew (`attends_rejoined`); and if it leaves, because it need not.
-/

namespace TopicMesh

open Node

variable {base : String} {configs : List DiscoveryConfig} {c : DiscoveryConfig}

namespace Hub

/-- What a node does at the hub in its calls. -/
inductive Touched (c : DiscoveryConfig) (h : Hub) : Hub → Prop
  | refl : Touched c h h
  | worked {h' h'' : Hub} : Touched c h h' → Worked c h' h'' → Touched c h h''
  | registered {h' : Hub} (will : Option Will) :
    Touched c h h' → Touched c h (h'.register c.nodeId will).1
  | cleaned {h' : Hub} : Touched c h h' → Touched c h (h'.cleanup c.nodeId true)
  /-- An inbox that nobody reads is closed. -/
  | closed {h' : Hub} (inbox : Nat) :
    Touched c h h' → (∀ client, h'.inboxOf client ≠ some inbox) → Touched c h (h'.closeInbox inbox)

variable {h h' : Hub} {n : Node}

theorem Touched.sound (touched : Touched c h h') (sound : h.Sound) : h'.Sound := by
  induction touched with
  | refl => exact sound
  | worked _ work ih => exact work.sound ih
  | registered will _ ih => exact sound_register c.nodeId will ih
  | cleaned _ ih => exact sound_cleanup_graceful c.nodeId ih
  | closed inbox _ unread ih => exact sound_closeInbox ih unread

theorem Touched.truthful (touched : Touched c h h') (sound : h.Sound) (listed : c ∈ configs)
    (truthful : h.Truthful (Says configs)) : h'.Truthful (Says configs) := by
  induction touched with
  | refl => exact truthful
  | worked before work ih => exact work.truthful (before.sound sound) listed ih
  | registered will before ih => exact truthful_register (before.sound sound) ih c.nodeId will
  | cleaned _ ih => exact ⟨ih.frames, ih.kept⟩
  | closed inbox _ _ ih => exact truthful_closeInbox ih inbox

theorem Touched.client (touched : Touched c h h') {client : String} (other : c.nodeId ≠ client) :
    h'.broker.clients.get? client = h.broker.clients.get? client := by
  induction touched with
  | refl => rfl
  | worked _ work ih => rw [work.clients, ih]
  | registered will _ ih =>
    rw [broker_register]
    show (KeyMap.insert ..).get? client = _
    rw [KeyMap.get?_insert, if_neg other, ih]
  | cleaned _ ih =>
    rw [broker_cleanup, Broker.clients_cleanup, KeyMap.get?_erase, if_neg other, ih]
  | closed _ _ _ ih => exact ih

theorem Touched.kept (touched : Touched c h h') {topic : String} (other : topic ≠ c.nodeTopic) :
    h'.kept topic = h.kept topic := by
  induction touched with
  | refl => rfl
  | worked _ work ih => rw [work.kept other, ih]
  | registered will _ ih => exact ih
  | cleaned _ ih => exact ih
  | closed _ _ _ ih => exact ih

/-- A bystander goes on to attend to everybody. -/
theorem Touched.bystander (roster : Roster base configs) (touched : Touched c h h')
    (listed : c ∈ configs) (listed' : n.config.discovery ∈ configs) (other : c.nodeId ≠ n.id)
    (sound : h.Sound) (reads : h.inboxOf n.id = n.line.inbox) (attends : Attends configs h n) :
    Attends configs h' n := by
  have still : ∀ {hub : Hub}, Touched c h hub → hub.inboxOf n.id = n.line.inbox := by
    intro hub before
    rw [← reads, inboxOf, inboxOf, before.client other]
  induction touched with
  | refl => exact attends
  | worked before work ih =>
    exact attends_worked roster listed listed' (before.sound sound) (still before) work (.refl n) ih
  | registered will before ih => exact attends_register (before.sound sound) other will ih
  | cleaned _ ih => exact attends_cleanup other ih
  | closed inbox before unread ih =>
    exact attends_closeInbox (still before ▸ unread n.id) ih

end Hub

open Hub

/-! ## Staying -/

variable {s s' : Station}

/-- Whether a node only worked at the hub and holds of the others what it held, and no
record of it is for the discovery filter if none was. -/
structure Station.Works (s s' : Station) : Prop where
  hub : Worked s.node.config.discovery s.hub s'.hub
  view : SameView s.node s'.node
  plain : (∀ topic r, s.node.subscriptions.get? topic = some r →
      topic ≠ s.node.config.discovery.filter) →
    ∀ topic r, s'.node.subscriptions.get? topic = some r → topic ≠ s.node.config.discovery.filter

theorem Station.Works.refl (s : Station) : s.Works s :=
  ⟨.refl, .refl s.node, id⟩

namespace Node

theorem encode_own {n : Node} (ok : n.Announceable) :
    n.ownAnnouncement.encode = .ok n.ownAnnouncement.toPack.write :=
  Announcement.encode_ok ok.host ok.keys

theorem worked_announcement {n : Node} (ok : n.Announceable) (h : Hub) :
    Worked n.config.discovery h (h.publish n.announcement) :=
  .announced .refl rfl (encode_own ok)

theorem worked_farewell {n : Node} (host : n.config.discovery.host ≠ "") (h : Hub) :
    Worked n.config.discovery h (h.publish n.farewell) :=
  .announced .refl rfl (Announcement.encode_departure host)

theorem worked_hubWith (attached : s.Attached) (topic : String) (qos : QoS) (e : Endpoint) :
    Worked s.node.config.discovery s.hub (hubWith s topic qos e) := by
  refine hubWith_keeps (P := Worked s.node.config.discovery s.hub) e ?_ .refl
  rw [attached.client]
  exact .subscribed topic qos .refl

theorem worked_hubWithout (attached : s.Attached) (hub : Hub) {topic : String} (e : Endpoint)
    (plain : topic ≠ s.node.config.discovery.filter) :
    Worked s.node.config.discovery hub (hubWithout s hub topic e) := by
  refine hubWithout_keeps (P := Worked s.node.config.discovery hub) e ?_ .refl
  rw [attached.client]
  exact .unsubscribed topic .refl plain

theorem worked_hubWithoutAll (attached : s.Attached)
    (records : List (String × Subscription Callback))
    (plain : ∀ e ∈ records, e.1 ≠ s.node.config.discovery.filter) :
    Worked s.node.config.discovery s.hub (hubWithoutAll s records) :=
  hubWithoutAll_keeps (P := Worked s.node.config.discovery s.hub) .refl
    fun hub worked r there => worked.trans (worked_hubWithout attached hub r.2.endpoint (plain r there))

theorem worked_renewed (attached : s.Attached) (topics : List (String × QoS)) (h : Hub) :
    Worked s.node.config.discovery h (renewed s.node.line.client topics h) := by
  rw [attached.client]
  exact renewed_keeps (P := Worked s.node.config.discovery h) .refl
    fun _ worked t _ => .subscribed t.1 t.2 worked

theorem works_subscribed (attached : s.Attached) (ok : s.node.Announceable) {topic : String}
    (reserved : isReserved s.node.config.discovery topic = false) (record : Subscription Callback)
    (network : DirectNetwork) : s.Works (subscribed s topic record network) := by
  obtain ⟨unreserved, apart⟩ := plain_of_not_reserved reserved
  have plain : topic ≠ s.node.config.discovery.filter := by
    rintro rfl
    rw [DiscoveryConfig.isDiscoveryTopic_filter] at apart
    cases apart
  have opens := worked_hubWith attached topic record.qos record.endpoint
  have stays : (∀ other r, s.node.subscriptions.get? other = some r →
      other ≠ s.node.config.discovery.filter) →
      ∀ other r, (s.node.withRecord topic record).subscriptions.get? other = some r →
        other ≠ s.node.config.discovery.filter := by
    intro before other r found
    rcases get?_withRecord_eq_some found with ⟨rfl, -⟩ | found
    · exact plain
    · exact before other r found
  cases advertised : record.advertised with
  | true =>
    have announceable := announceable_insert (n := s.node.withRecord topic record)
      ⟨ok.host, ok.keys⟩ unreserved (capability record)
    rw [subscribed_of_advertised advertised]
    exact ⟨opens.trans (worked_announcement announceable _), ⟨rfl, rfl, rfl, rfl⟩, stays⟩
  | false =>
    rw [subscribed_of_quiet advertised]
    exact ⟨opens, ⟨rfl, rfl, rfl, rfl⟩, stays⟩

theorem works_subscribe (steady : s.Steady) (attached : s.Attached) (ok : s.node.Announceable)
    (topic : String) (callback : Callback) (protocols : ProtocolSet) (qos : QoS) :
    s.Works (Act.after (subscribe topic callback protocols qos) s) := by
  rcases subscribe_after steady ok topic callback protocols qos with
    same | ⟨record, found, joins⟩ | ⟨record, network, -, -, reserved, -, makes⟩
  · rw [same]
    exact .refl s
  · rw [joins]
    refine ⟨.refl, ⟨rfl, rfl, rfl, rfl⟩, fun before other r found' => ?_⟩
    rcases get?_withRecord_eq_some found' with ⟨rfl, -⟩ | found'
    · exact before other record found
    · exact before other r found'
  · rw [makes]
    exact works_subscribed attached ok reserved record network

theorem works_unsubscribed (attached : s.Attached) (ok : s.node.Announceable) {topic : String}
    {record : Subscription Callback} (plain : topic ≠ s.node.config.discovery.filter)
    (network : DirectNetwork) : s.Works (unsubscribed s topic record network) := by
  have closes := worked_hubWithout attached s.hub record.endpoint plain
  have stays : (∀ other r, s.node.subscriptions.get? other = some r →
      other ≠ s.node.config.discovery.filter) →
      ∀ other r, (s.node.withoutRecord topic).subscriptions.get? other = some r →
        other ≠ s.node.config.discovery.filter :=
    fun before other r found => before other r (get?_of_withoutRecord found)
  unfold unsubscribed
  dsimp only
  split
  · have announceable := announceable_erase (n := s.node.withoutRecord topic)
      ⟨ok.host, ok.keys⟩ topic
    refine ⟨?_, ⟨rfl, rfl, rfl, rfl⟩, stays⟩
    dsimp only
    split
    · exact closes.trans (worked_announcement announceable _)
    · exact closes
  · exact ⟨closes, ⟨rfl, rfl, rfl, rfl⟩, stays⟩

theorem works_unsubscribe (steady : s.Steady) (attached : s.Attached) (ok : s.node.Announceable)
    (plain : ∀ topic r, s.node.subscriptions.get? topic = some r →
      topic ≠ s.node.config.discovery.filter)
    (topic : String) : s.Works (Act.after (unsubscribe topic) s) := by
  rcases unsubscribe_after steady ok topic with same | ⟨record, network, found, ends⟩
  · rw [same]
    exact .refl s
  · rw [ends]
    exact works_unsubscribed attached ok (plain topic record found) network

/-! ## Joining -/

theorem touched_joined (attached : s.Attached) :
    Touched s.node.config.discovery s.hub (joined s).hub := by
  cases hi : s.node.line.inbox with
  | some inbox =>
    rw [joined_of_connected hi]
    exact .refl
  | none =>
    rw [joined_of_lost hi, attached.client]
    exact .registered s.node.lastWill .refl

/-- The hub after a node that joins has subscribed the discovery filter. -/
def hubListening (s : Station) : Hub :=
  (renewed s.node.line.client s.node.subscriptions.brokerTopics (joined s).hub).subscribe
    s.node.config.discovery.filter s.node.line.client .atLeastOnce

theorem worked_hubListening (attached : s.Attached) :
    Worked s.node.config.discovery (joined s).hub (hubListening s) := by
  have renews := worked_renewed attached s.node.subscriptions.brokerTopics (joined s).hub
  unfold hubListening
  rw [attached.client] at renews ⊢
  exact .subscribed _ _ renews

theorem worked_hubJoined (ok : s.node.Announceable) :
    Worked s.node.config.discovery (hubListening s) (hubJoined s) := by
  unfold hubJoined
  dsimp only
  split
  · exact .refl
  · exact worked_announcement ok _

theorem touched_hubJoined (attached : s.Attached) (ok : s.node.Announceable) :
    Touched s.node.config.discovery s.hub (hubJoined s) :=
  ((touched_joined attached).worked (worked_hubListening attached)).worked (worked_hubJoined ok)

/-- A line that is attached anew hears all that is kept.  Nothing may wait in the inboxes
of the node's earlier lines. -/
theorem attends_listening (roster : Roster base configs)
    (listed : s.node.config.discovery ∈ configs) (sound : s.hub.Sound) (attached : s.Attached)
    (lost : s.node.line.inbox = none)
    (earlier : ∀ inbox, s.hub.ownerOf? inbox = some s.node.id →
      s.hub.inboxOf s.node.id ≠ some inbox → s.hub.framesIn inbox = [])
    (attends : Attends configs s.hub s.node) :
    Attends configs (hubListening s) (joined s).node := by
  have fresh := joined_of_lost lost
  rw [attached.client] at fresh
  have sound' : (joined s).hub.Sound := (touched_joined attached).sound sound
  have listening := worked_hubListening attached
  have line : (joined s).node.line.inbox = some s.hub.nextInbox := by rw [fresh]
  have config : (joined s).node.config = s.node.config := by rw [fresh]
  have id : (joined s).node.id = s.node.id := by rw [Node.id, Node.id, config]
  have reads : (joined s).hub.inboxOf s.node.id = some s.hub.nextInbox := by
    rw [fresh, inboxOf_register, if_pos rfl]
  have owners : ∀ inbox, inbox ≠ s.hub.nextInbox →
      (hubListening s).ownerOf? inbox = s.hub.ownerOf? inbox := by
    intro inbox old
    rw [listening.ownerOf?, fresh, ownerOf?_register, if_neg old.symm]
  have valid := roster.isValid_filter listed
  refine ⟨?_, ?_, ?_, ?_, ?_⟩
  · rw [fresh]
    exact attends.labelled
  · rw [fresh]
    exact attends.tracks
  · intro current _
    rw [config, id]
    unfold hubListening
    rw [attached.client]
    exact listens_of_subscribe valid _
  · intro current e topic host speaks _
    obtain rfl := Option.some.inj (line.symm.trans e)
    have renews := worked_renewed attached s.node.subscriptions.brokerTopics (joined s).hub
    have reads' := (renews.inboxOf s.node.id).trans reads
    unfold hubListening
    rw [attached.client] at renews reads' ⊢
    exact latest_of_subscribe (renews.sound sound') reads' valid
      (roster.filter_matches listed speaks) _
  · intro current e inbox owner old
    obtain rfl := Option.some.inj (line.symm.trans e)
    have unread := unread_of_earlier (n := (joined s).node) sound' (by rw [id, reads, line]) e
      (by rw [← listening.ownerOf?, owner]) old
    rw [id, owners inbox old] at owner
    rw [listening.framesIn_unread sound' unread, fresh, framesIn_register _ _ sound]
    refine earlier inbox owner fun read => ?_
    have := attached.inbox.symm.trans read
    rw [lost] at this
    cases this

/-- A node that joins hears again what is kept.  Nothing may wait in the inboxes of its
earlier lines. -/
theorem attends_rejoined (roster : Roster base configs) (listed : s.node.config.discovery ∈ configs)
    (sound : s.hub.Sound) (attached : s.Attached) (ok : s.node.Announceable)
    (earlier : ∀ inbox, s.hub.ownerOf? inbox = some s.node.id →
      s.hub.inboxOf s.node.id ≠ some inbox → s.hub.framesIn inbox = [])
    (attends : Attends configs s.hub s.node) :
    Attends configs (hubJoined s) (joined s).node := by
  have listening := worked_hubListening attached
  have announced := worked_hubJoined ok
  cases hi : s.node.line.inbox with
  | some inbox =>
    -- the line is attached already, and the subscriptions are renewed
    rw [joined_of_connected hi] at listening ⊢
    exact attends_worked roster listed listed sound attached.inbox (listening.trans announced)
      ⟨rfl, rfl, rfl, rfl⟩ attends
  | none =>
    have starts := attends_listening roster listed sound attached hi earlier attends
    have sound' : (joined s).hub.Sound := (touched_joined attached).sound sound
    obtain ⟨config, -⟩ := joined_keeps s
    have listed' : (joined s).node.config.discovery ∈ configs := by
      rw [config]
      exact listed
    refine attends_worked roster listed listed' (listening.sound sound') ?_ announced (.refl _) starts
    rw [listening.inboxOf]
    exact (attached_joined attached).inbox

/-! ## Leaving -/

theorem touched_hubLeft (attached : s.Attached) (host : s.node.config.discovery.host ≠ "")
    (plain : ∀ topic r, s.node.subscriptions.get? topic = some r →
      topic ≠ s.node.config.discovery.filter) :
    Touched s.node.config.discovery s.hub (hubLeft s) := by
  have closes := worked_hubWithoutAll attached s.node.subscriptions.byTopic.entries
    fun e he => plain e.1 e.2 (KeyMap.mem_entries_iff.1 he)
  unfold hubLeft
  dsimp only
  rw [attached.client]
  split
  · exact .cleaned (.worked .refl (closes.trans (worked_farewell host _)))
  · exact .worked .refl closes

theorem nonempty_farewell (n : Node) : n.farewell.payload.isEmpty = false :=
  List.isEmpty_eq_false_iff.2 (Announcement.write_ne_nil _)

theorem kept_hubWithoutAll (records : List (String × Subscription Callback)) (topic : String) :
    (hubWithoutAll s records).kept topic = s.hub.kept topic :=
  hubWithoutAll_keeps (P := fun h => h.kept topic = s.hub.kept topic) rfl
    fun hub same r _ => (Station.kept_hubWithout hub r.1 r.2.endpoint topic).trans same

theorem kept_hubLeft :
    (hubLeft s).kept s.node.config.discovery.nodeTopic =
      if s.isConnected then some s.node.farewell.payload else s.kept := by
  unfold hubLeft
  dsimp only
  split
  · rw [kept_cleanup_graceful, kept_publish, if_pos ⟨rfl, rfl⟩, nonempty_farewell]
    rfl
  · exact kept_hubWithoutAll ..

/-- The hub after an attached line was lost. -/
theorem hubLost_of_attached (attached : s.Attached) {inbox : Nat}
    (h : s.node.line.inbox = some inbox) :
    hubLost s =
      (if s.node.config.discovery.lastWill then
        (s.hub.cleanup s.node.id true).publish s.node.farewell
      else s.hub.cleanup s.node.id true).closeInbox inbox := by
  have registered : ∃ r, s.hub.broker.clients.get? s.node.id = some r := by
    have := attached.inbox
    rw [h] at this
    obtain ⟨r, hr, -⟩ := Option.map_eq_some_iff.1 this
    exact ⟨r, hr⟩
  obtain ⟨r, hr⟩ := registered
  have willed := attached.will r hr
  unfold lastWill at willed
  rw [hubLost_of_inbox h, attached.client, cleanup_ungraceful, hr, Option.bind_some, willed]
  by_cases given : s.node.config.discovery.lastWill = true
  · rw [if_pos given, if_pos given]
    rfl
  · rw [if_neg given, if_neg given]

theorem touched_hubLost (sound : s.hub.Sound) (attached : s.Attached)
    (host : s.node.config.discovery.host ≠ "") :
    Touched s.node.config.discovery s.hub (hubLost s) := by
  cases hi : s.node.line.inbox with
  | none =>
    rw [hubLost_of_lost hi]
    exact .refl
  | some inbox =>
    have unread := sound.unread_cleanup (attached.inbox.trans hi)
    rw [hubLost_of_attached attached hi]
    refine .closed inbox ?_ ?_
    · split
      · exact .worked (.cleaned .refl) (worked_farewell host _)
      · exact .cleaned .refl
    · split
      · exact unread
      · exact unread

/-- What is kept after a line was lost. -/
theorem kept_hubLost (attached : s.Attached) :
    (hubLost s).kept s.node.config.discovery.nodeTopic =
      if s.isConnected = true ∧ s.node.config.discovery.lastWill = true then
        some s.node.farewell.payload
      else s.kept := by
  rw [Station.isConnected_eq_isSome attached]
  cases hi : s.node.line.inbox with
  | none =>
    rw [hubLost_of_lost hi, if_neg fun both => by cases both.1]
    rfl
  | some inbox =>
    rw [hubLost_of_attached attached hi]
    by_cases will : s.node.config.discovery.lastWill = true
    · rw [if_pos will, if_pos ⟨rfl, will⟩]
      show ((s.hub.cleanup s.node.id true).publish s.node.farewell).kept _ = _
      rw [kept_publish, if_pos ⟨rfl, rfl⟩, nonempty_farewell]
      rfl
    · rw [if_neg will, if_neg fun both => will both.2]
      rfl

end Node

/-! ## One call -/

/-- What a call does: others are not disturbed, and the caller is consistent and attends
to the others as before. -/
structure Station.Behaves (configs : List DiscoveryConfig) (s s' : Station) : Prop where
  touched : Touched s.node.config.discovery s.hub s'.hub
  config : s'.node.config = s.node.config
  consistent : ∃ orphan outlived, s'.Consistent orphan outlived
  plain : ∀ topic r, s'.node.subscriptions.get? topic = some r →
    topic ≠ s.node.config.discovery.filter
  attends : s'.node.Attends configs s'.hub

section Behaving

variable {orphan : String → Prop} {outlived : Prop}
  (roster : Roster base configs) (listed : s.node.config.discovery ∈ configs)
  (sound : s.hub.Sound) (consistent : s.Consistent orphan outlived)
  (plain : ∀ topic r, s.node.subscriptions.get? topic = some r →
    topic ≠ s.node.config.discovery.filter)
  (attends : s.node.Attends configs s.hub)
include roster listed sound consistent plain attends

theorem Station.Works.behaves (works : s.Works s')
    (consistent' : ∃ orphan outlived, s'.Consistent orphan outlived) : s.Behaves configs s' :=
  ⟨.worked .refl works.hub, works.view.config, consistent', works.plain plain,
    attends_worked roster listed listed sound consistent.attached.inbox works.hub works.view
      attends⟩

theorem behaves_call (call : Call)
    (earlier : call = .connect → ∀ inbox, s.hub.ownerOf? inbox = some s.node.id →
      s.hub.inboxOf s.node.id ≠ some inbox → s.hub.framesIn inbox = []) :
    s.Behaves configs (Act.after call.act s) := by
  have steady := consistent.steady
  have attached := consistent.attached
  have ok := consistent.announceable
  match call with
  | .connect =>
    have next := (Station.consistent_connect consistent).2
    rw [show Call.connect.act = Node.connect from rfl]
    rw [Act.after_ok (connect_ok steady attached ok)] at next ⊢
    obtain ⟨config, subscriptions, -⟩ := joined_keeps s
    refine ⟨touched_hubJoined attached ok, config, ⟨_, _, next⟩, ?_, ?_⟩
    · intro topic r hr
      rw [subscriptions] at hr
      exact plain topic r hr
    · exact attends_rejoined roster listed sound attached ok (earlier rfl) attends
  | .subscribe topic callback protocols qos =>
    refine Station.Works.behaves roster listed sound consistent plain attends
      (works_subscribe steady attached ok topic callback protocols qos) ?_
    rcases Station.subscribe_fades_or_serves steady ok topic callback protocols qos with
      fades | ⟨record, network, advertised, -, unreserved, -, made⟩
    · exact ⟨_, _, Station.consistent_fades consistent fades⟩
    · have next := Station.consistent_subscribed consistent unreserved advertised network
      rw [← made] at next
      exact ⟨_, _, next⟩
  | .unsubscribe topic =>
    refine Station.Works.behaves roster listed sound consistent plain attends
      (works_unsubscribe steady attached ok plain topic) ?_
    exact ⟨_, _, Station.consistent_fades consistent (Station.fades_unsubscribe steady ok topic)⟩
  | .disconnect =>
    have next := (Station.consistent_disconnect consistent).2
    obtain ⟨n, network, run, left⟩ := disconnect_ok steady attached ok.host
    rw [show Call.disconnect.act = Node.disconnect from rfl]
    rw [Act.after_ok run] at next ⊢
    refine ⟨touched_hubLeft attached ok.host plain, left.config, ⟨_, _, next⟩, ?_, ?_⟩
    · intro topic r hr
      rw [left.subscriptions] at hr
      cases hr
    · refine attends_of_lost (by rw [left.line]) (left.table ▸ RouteTable.labelled_empty) ?_
      intro topic host _ _ other port there
      rw [left.table] at there
      exact absurd rfl there
  | .abort =>
    have next := (Station.consistent_abort consistent).2
    obtain ⟨events, run⟩ := abort_ok s
    rw [show Call.abort.act = Node.abort from rfl]
    rw [Act.after_ok run] at next ⊢
    exact ⟨touched_hubLost sound attached ok.host, rfl, ⟨_, _, next⟩, plain,
      attends_of_lost rfl attends.labelled attends.tracks⟩

end Behaving

/-! ## Having left -/

namespace Station

variable {orphan : String → Prop} {outlived : Prop}

/-- Whether the farewell of a node is kept, and the node has nothing to announce if its
line is connected. -/
structure Gone (s : Station) : Prop where
  kept : s.kept = some s.node.farewell.payload
  nothing : s.isConnected = true → s.node.discovery.advertised.isEmpty = true

theorem gone_calm (attached : s.Attached) (calm : Calm s s') (gone : s.Gone) : s'.Gone := by
  refine ⟨?_, fun up => ?_⟩
  · rw [calm.kept, gone.kept, farewell, farewell, calm.config]
  · rw [calm.isConnected attached] at up
    rw [calm.advertised]
    exact gone.nothing up

/-- What fades has been announced before, or the line is not connected. -/
theorem gone_fades (consistent : s.Consistent orphan outlived) (fades : Fades s s')
    (gone : s.Gone) : s'.Gone := by
  induction fades with
  | calm calm => exact gone_calm consistent.attached calm gone
  | @ended s topic record network found advertised =>
    have down : s.isConnected = false := by
      refine Bool.eq_false_iff.2 fun up => ?_
      have served := served_of_get? found
      rw [advertised, if_pos rfl] at served
      have nothing := (consistent.of_isEmpty (gone.nothing up) topic).1
      rw [nothing] at served
      cases served
    have after_down := isConnected_unsubscribed consistent.attached topic record network
    rw [unsubscribed_eq consistent found advertised network] at after_down ⊢
    rw [down] at after_down ⊢
    refine ⟨?_, fun up => absurd (after_down.symm.trans up) (by simp)⟩
    show (hubWithout s s.hub topic record.endpoint).kept _ = _
    rw [kept_hubWithout]
    exact gone.kept
  | trans first _ ih ih' => exact ih' (consistent_fades consistent first) (ih consistent gone)

theorem gone_disconnect (consistent : s.Consistent orphan outlived)
    (leaves : s.isConnected = true ∨ s.Gone) : (Act.after Node.disconnect s).Gone := by
  have attached := consistent.attached
  obtain ⟨n, network, run, left⟩ :=
    disconnect_ok consistent.steady attached consistent.announceable.host
  rw [Act.after_ok run]
  have down := isConnected_left attached left network
  refine ⟨?_, fun up => absurd (down.symm.trans up) (by simp)⟩
  show (hubLeft s).kept n.config.discovery.nodeTopic = some n.farewell.payload
  rw [farewell, left.config, kept_hubLeft]
  split
  · rfl
  · next lost =>
    rcases leaves with up | gone
    · exact absurd up lost
    · exact gone.kept

theorem gone_abort (consistent : s.Consistent orphan outlived)
    (leaves : (s.isConnected = true ∧ s.node.config.discovery.lastWill = true) ∨ s.Gone) :
    (Act.after Node.abort s).Gone := by
  have attached := consistent.attached
  obtain ⟨events, run⟩ := abort_ok s
  rw [Act.after_ok run]
  have down := isConnected_lost attached events
  refine ⟨?_, fun up => absurd (down.symm.trans up) (by simp)⟩
  show (hubLost s).kept s.node.config.discovery.nodeTopic = some s.node.farewell.payload
  rw [kept_hubLost attached]
  split
  · rfl
  · next silent =>
    rcases leaves with willed | gone
    · exact absurd willed silent
    · exact gone.kept

/-- A node that is gone stays so through its calls, until its line is connected and it
has something to announce. -/
theorem gone_call (consistent : s.Consistent orphan outlived) (gone : s.Gone) (call : Call)
    (silent : ¬((Act.after call.act s).isConnected = true ∧
      (Act.after call.act s).node.discovery.advertised.isEmpty = false)) :
    (Act.after call.act s).Gone := by
  have steady := consistent.steady
  have attached := consistent.attached
  have ok := consistent.announceable
  match call with
  | .disconnect => exact gone_disconnect consistent (.inr gone)
  | .abort => exact gone_abort consistent (.inr gone)
  | .unsubscribe topic => exact gone_fades consistent (fades_unsubscribe steady ok topic) gone
  | .subscribe topic callback protocols qos =>
    rcases subscribe_fades_or_serves steady ok topic callback protocols qos with
      fades | ⟨record, network, advertised, up, -, -, made⟩
    · exact gone_fades consistent fades gone
    · -- the topic is announced
      refine absurd ?_ silent
      rw [show (Call.subscribe topic callback protocols qos).act =
        Node.subscribe topic callback protocols qos from rfl, made]
      have attached' := attached_subscribed attached topic record network
      have connected : (subscribed s topic record network).isConnected = true := by
        rw [isConnected_eq_isSome attached', ← up, isConnected_eq_isSome attached]
        exact congrArg (fun l : Line => l.inbox.isSome) (subscribed_keeps s topic record network).2
      refine ⟨connected, ?_⟩
      unfold subscribed
      rw [if_pos advertised]
      refine Bool.eq_false_iff.2 fun empty => ?_
      have get : (s.node.discovery.advertised.insert topic (capability record)).get? topic =
          some (capability record) := (KeyMap.get?_insert ..).trans (if_pos rfl)
      exact Option.some_ne_none _ (get.symm.trans (KeyMap.isEmpty_iff.1 empty topic))
  | .connect =>
    have up := (consistent_connect consistent).1
    rw [show Call.connect.act = Node.connect from rfl] at silent ⊢
    rw [Act.after_ok (connect_ok steady attached ok)] at silent up ⊢
    obtain ⟨config, -, discovery, -⟩ := joined_keeps s
    have nothing : s.node.discovery.advertised.isEmpty = true := by
      rw [← discovery]
      exact Bool.not_eq_false _ ▸ fun empty => silent ⟨up, empty⟩
    refine ⟨?_, fun _ => ?_⟩
    · show (hubJoined s).kept (joined s).node.config.discovery.nodeTopic = _
      rw [farewell, config, kept_hubJoined, if_pos nothing]
      exact gone.kept
    · show (joined s).node.discovery.advertised.isEmpty = true
      rw [discovery]
      exact nothing

end Station

end TopicMesh
