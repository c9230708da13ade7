import Mathlib.Data.List.Nodup
import TopicMesh.Proofs.Announcement.RoundTrip
import TopicMesh.Proofs.Broker.Listening
import TopicMesh.Proofs.Discovery.Topics

/-!
# Nodes on one hub

The nodes of a mesh are listed with their discovery configurations (`Roster`): below
one base, each with an identity and a host of its own.  Whatever they publish is an
announcement of one of them (`Says`).

`Worked` is what a node does at the hub while it stays connected: it subscribes, ends
subscriptions other than that of the discovery filter, and announces.  That keeps what
everybody, the node itself included, knows from listening.
-/

namespace TopicMesh

/-- Whether discovery configurations are those of one mesh. -/
structure Roster (base : String) (configs : List DiscoveryConfig) : Prop where
  plain : PlainBase base
  below : ∀ c ∈ configs, c.topicBase = base
  named : ∀ c ∈ configs, NodeName c.nodeId
  host : ∀ c ∈ configs, c.host ≠ ""
  /-- The host's length can be written. -/
  short : ∀ c ∈ configs, Announcement.TextFits c.host
  identities : (configs.map DiscoveryConfig.nodeId).Nodup
  hosts : (configs.map DiscoveryConfig.host).Nodup

/-- Whether a topic is the announcement topic of a node with a host. -/
def Speaks (configs : List DiscoveryConfig) (topic host : String) : Prop :=
  ∃ c ∈ configs, c.nodeTopic = topic ∧ c.host = host

/-- Whether a payload is an announcement of the node that a topic belongs to. -/
def Says (configs : List DiscoveryConfig) (topic : String) (payload : Bytes) : Prop :=
  ∃ a : Announcement, Speaks configs topic a.host ∧ a.encode = .ok payload

namespace Roster

variable {base : String} {configs : List DiscoveryConfig} {c d : DiscoveryConfig}
  {topic topic' host host' : String}

theorem nodeTopic_inj (roster : Roster base configs) (hc : c ∈ configs) (hd : d ∈ configs) :
    c.nodeTopic = d.nodeTopic ↔ c = d := by
  refine ⟨fun same => ?_, fun same => by rw [same]⟩
  have below : c.topicBase = d.topicBase := (roster.below c hc).trans (roster.below d hd).symm
  exact List.inj_on_of_nodup_map roster.identities hc hd
    ((DiscoveryConfig.nodeTopic_inj below).1 same)

/-- A topic belongs to one host. -/
theorem host_unique (roster : Roster base configs) (speaks : Speaks configs topic host)
    (speaks' : Speaks configs topic host') : host = host' := by
  obtain ⟨c, hc, rfl, rfl⟩ := speaks
  obtain ⟨d, hd, same, rfl⟩ := speaks'
  rw [(roster.nodeTopic_inj hd hc).1 same]

/-- A host has one topic. -/
theorem topic_unique (roster : Roster base configs) (speaks : Speaks configs topic host)
    (speaks' : Speaks configs topic' host) : topic = topic' := by
  obtain ⟨c, hc, rfl, rfl⟩ := speaks
  obtain ⟨d, hd, rfl, same⟩ := speaks'
  rw [List.inj_on_of_nodup_map roster.hosts hd hc same]

theorem same_base (roster : Roster base configs) (hc : c ∈ configs) (hd : d ∈ configs) :
    d.topicBase = c.topicBase :=
  (roster.below d hd).trans (roster.below c hc).symm

theorem same_filter (roster : Roster base configs) (hc : c ∈ configs) (hd : d ∈ configs) :
    d.filter = c.filter := by
  rw [DiscoveryConfig.filter, DiscoveryConfig.filter, roster.same_base hc hd]

theorem plain_base (roster : Roster base configs) (hc : c ∈ configs) : PlainBase c.topicBase := by
  rw [roster.below c hc]
  exact roster.plain

theorem isValid_filter (roster : Roster base configs) (hc : c ∈ configs) :
    Filter.isValid c.filter = true :=
  DiscoveryConfig.isValid_filter (roster.plain_base hc)

theorem filter_matches (roster : Roster base configs) (hc : c ∈ configs)
    (speaks : Speaks configs topic host) : Filter.topicMatches c.filter topic = true := by
  obtain ⟨d, hd, rfl, -⟩ := speaks
  exact DiscoveryConfig.filter_matches_nodeTopic (roster.plain_base hc) (roster.same_base hc hd)
    (roster.named d hd)

theorem isDiscoveryTopic (roster : Roster base configs) (hc : c ∈ configs)
    (speaks : Speaks configs topic host) : c.isDiscoveryTopic topic = true := by
  obtain ⟨d, hd, rfl, -⟩ := speaks
  exact DiscoveryConfig.isDiscoveryTopic_nodeTopic (roster.same_base hc hd) (roster.named d hd)

end Roster

namespace Hub

/-- What a node does at the hub while it stays connected. -/
inductive Worked (c : DiscoveryConfig) (h : Hub) : Hub → Prop
  | refl : Worked c h h
  | subscribed {h' : Hub} (filter : String) (qos : QoS) :
    Worked c h h' → Worked c h (h'.subscribe filter c.nodeId qos)
  | unsubscribed {h' : Hub} (filter : String) :
    Worked c h h' → filter ≠ c.filter → Worked c h (h'.unsubscribe filter c.nodeId)
  | announced {h' : Hub} {a : Announcement} {payload : Bytes} :
    Worked c h h' → a.host = c.host → a.encode = .ok payload →
    Worked c h (h'.publish (.plain c.nodeTopic payload .atLeastOnce true))

namespace Worked

variable {base : String} {configs : List DiscoveryConfig} {c : DiscoveryConfig} {h h' h'' : Hub}

theorem trans (work : Worked c h h') (more : Worked c h' h'') : Worked c h h'' := by
  induction more with
  | refl => exact work
  | subscribed filter qos _ ih => exact .subscribed filter qos ih
  | unsubscribed filter _ other ih => exact .unsubscribed filter ih other
  | announced _ host encoded ih => exact .announced ih host encoded

theorem sound (work : Worked c h h') (sound : h.Sound) : h'.Sound := by
  induction work with
  | refl => exact sound
  | subscribed filter qos _ ih => exact sound_subscribe filter c.nodeId qos ih
  | unsubscribed filter _ _ ih => exact sound_unsubscribe c.nodeId ih filter
  | announced _ _ _ ih => exact sound_publish ih _

theorem truthful (work : Worked c h h') (sound : h.Sound) (listed : c ∈ configs)
    (truthful : h.Truthful (Says configs)) : h'.Truthful (Says configs) := by
  induction work with
  | refl => exact truthful
  | subscribed filter qos work ih => exact truthful_subscribe (work.sound sound) ih ..
  | unsubscribed filter _ _ ih => exact ⟨ih.frames, ih.kept⟩
  | announced work host encoded ih =>
    exact truthful_publish (work.sound sound) ih ⟨_, ⟨c, listed, rfl, host.symm⟩, encoded⟩

theorem clients (work : Worked c h h') : h'.broker.clients = h.broker.clients := by
  induction work with
  | refl => rfl
  | subscribed filter qos _ ih => exact (Broker.clients_subscribe ..).trans ih
  | unsubscribed filter _ _ ih => exact ih
  | announced _ _ _ ih => exact ih

theorem inboxOf (work : Worked c h h') (client : String) : h'.inboxOf client = h.inboxOf client := by
  rw [Hub.inboxOf, Hub.inboxOf, work.clients]

theorem ownerOf? (work : Worked c h h') (inbox : Nat) : h'.ownerOf? inbox = h.ownerOf? inbox := by
  induction work with
  | refl => rfl
  | subscribed filter qos _ ih => rw [ownerOf?_subscribe, ih]
  | unsubscribed filter _ _ ih => exact ih
  | announced _ _ _ ih => rw [ownerOf?_publish, ih]

/-- Only the node's own topic may be kept differently. -/
theorem kept (work : Worked c h h') {topic : String} (other : topic ≠ c.nodeTopic) :
    h'.kept topic = h.kept topic := by
  induction work with
  | refl => rfl
  | subscribed filter qos _ ih => rw [kept_subscribe, ih]
  | unsubscribed filter _ _ ih => exact ih
  | announced _ _ _ ih =>
    rw [kept_publish, if_neg fun both => other both.2.symm, ih]

theorem listens (work : Worked c h h') {client : String} (listens : h.Listens c.filter client) :
    h'.Listens c.filter client := by
  induction work with
  | refl => exact listens
  | subscribed filter qos _ ih => exact listens_subscribe ih ..
  | unsubscribed filter _ other ih => exact listens_unsubscribe ih fun both => other both.1
  | announced _ _ _ ih => exact ih

/-- Who listens goes on to hear the newest payload. -/
theorem latest (work : Worked c h h') (sound : h.Sound) {client topic : String} {inbox : Nat}
    {taken : Bytes → Prop} (reads : h.inboxOf client = some inbox)
    (listens : h.Listens c.filter client) (matching : Filter.topicMatches c.filter topic = true)
    (latest : h.Latest inbox topic taken) : h'.Latest inbox topic taken := by
  induction work with
  | refl => exact latest
  | subscribed filter qos work ih => exact latest_subscribe (work.sound sound) ih filter c.nodeId qos
  | unsubscribed filter _ _ ih => exact ih
  | announced work _ _ ih =>
    exact latest_publish (work.sound sound) ih ((work.inboxOf client).trans reads)
      ((work.sound sound).filed.owns_iff.2 ⟨_, matching, work.listens listens⟩) rfl

theorem framesIn_unread (work : Worked c h h') (sound : h.Sound) {inbox : Nat}
    (unread : ∀ client, h.inboxOf client ≠ some inbox) : h'.framesIn inbox = h.framesIn inbox := by
  induction work with
  | refl => rfl
  | subscribed filter qos work ih =>
    rw [framesIn_subscribe_unread (fun client => work.inboxOf client ▸ unread client)
      (work.sound sound), ih]
  | unsubscribed filter _ _ ih => exact ih
  | announced work _ _ ih =>
    rw [framesIn_publish_unread (fun client => work.inboxOf client ▸ unread client)
      (work.sound sound), ih]

end Worked

end Hub

end TopicMesh
