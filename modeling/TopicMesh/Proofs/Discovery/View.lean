import TopicMesh.Discovery
import TopicMesh.Proofs.RouteTable.Reading

/-!
# What a node holds of another

A node's **view** of another is made of the ports it knows from the other's topic
(`known?`) and of the routes to the other's host.  Taking in an announcement
(`absorbInto`) changes the view of the announced node and no other one
(`known?_absorbInto_of_ne`, `route?_absorbInto_of_ne`).

A route table **tracks** a host if it has no routes to it but those at the known
ports.  That is kept by every announcement of the host (`tracks_absorbInto`), and an
announcement that was taken in is **followed**: its routes are there, or none at all
if it is a departure (`follows_absorbInto`).  Together they leave one port for each
announced topic (`lookup_of_follows`).
-/

namespace TopicMesh.Discovery

variable {σ : Type}

/-- The port that a node knows for a topic of the node with an announcement topic. -/
def known? (d : Discovery) (nodeTopic topic : String) : Option UInt16 :=
  (d.announced.innerOf nodeTopic).get? topic

/-- Whether all routes to a host are at the ports known from an announcement topic. -/
def Tracks (d : Discovery) (t : RouteTable σ) (nodeTopic host : String) : Prop :=
  ∀ topic port, t.route? topic host port ≠ none → d.known? nodeTopic topic = some port

/-- Whether a route table says of a host what an announcement says. -/
def Follows (t : RouteTable σ) (host : String) (a : Announcement) : Prop :=
  match a.status with
  | .connected => ∀ topic c, a.topics.get? topic = some c →
      ∃ r, t.route? topic host c.port = some r ∧ r.protocol = c.protocol
  | .disconnected => ∀ topic port, t.route? topic host port = none

/-- The knowledge and the table after an announcement. -/
def absorbInto (d : Discovery) (t : RouteTable σ) (nodeTopic : String) (a : Announcement) :
    Discovery × RouteTable σ :=
  ((d.absorb nodeTopic a).1, (TableOp.runAll t (d.absorb nodeTopic a).2).1)

/-! ## What is remembered -/

theorem mem_updates_iff {a : Announcement} {u : RouteUpdate} :
    u ∈ a.updates ↔ a.topics.get? u.topic = some ⟨u.protocol, u.port⟩ := by
  unfold Announcement.updates
  rw [List.mem_map, ← KeyMap.mem_entries_iff]
  constructor
  · rintro ⟨⟨topic, c⟩, he, rfl⟩
    exact he
  · intro h
    exact ⟨_, h, rfl⟩

theorem updates_distinct (a : Announcement) :
    a.updates.Pairwise fun u v => u.topic ≠ v.topic :=
  List.pairwise_map.2 a.topics.entries_distinct

theorem get?_remember (known : KeyMap String UInt16) (a : Announcement) (topic : String) :
    (remember known a.updates).get? topic =
      ((a.topics.get? topic).map Capability.port).or (known.get? topic) := by
  unfold remember
  cases h : a.topics.get? topic with
  | some c =>
    have mem : (⟨topic, c.port, c.protocol⟩ : RouteUpdate) ∈ a.updates := mem_updates_iff.2 h
    exact KeyMap.get?_foldl_insert_of_mem RouteUpdate.topic RouteUpdate.port (updates_distinct a)
      mem known
  | none =>
    refine KeyMap.get?_foldl_insert_of_forall_ne RouteUpdate.topic RouteUpdate.port
      (fun u hu same => ?_) known
    rw [← same, mem_updates_iff.1 hu] at h
    cases h

theorem mem_movedPorts_iff {known : KeyMap String UInt16} {a : Announcement} {topic : String}
    {port : UInt16} :
    (topic, port) ∈ movedPorts known a.updates ↔
      known.get? topic = some port ∧ ∃ c, a.topics.get? topic = some c ∧ port ≠ c.port := by
  unfold movedPorts
  rw [List.mem_filterMap]
  constructor
  · rintro ⟨u, hu, h⟩
    split at h
    · next old hk =>
      split at h
      · cases h
      · next moved =>
        cases h
        exact ⟨hk, _, mem_updates_iff.1 hu, moved⟩
    · cases h
  · rintro ⟨hk, c, hc, moved⟩
    refine ⟨⟨topic, c.port, c.protocol⟩, mem_updates_iff.2 hc, ?_⟩
    simp [hk, moved]

/-! ## One announcement -/

theorem absorbInto_of_connected (d : Discovery) (t : RouteTable σ) (nodeTopic : String)
    {a : Announcement} (h : a.status = .connected) :
    d.absorbInto t nodeTopic a =
      ({ d with announced := d.announced.within nodeTopic fun known => remember known a.updates },
        ((t.apply a.host a.updates).1.retire a.host
          (movedPorts (d.announced.innerOf nodeTopic) a.updates)).1) := by
  unfold absorbInto absorb
  rw [h]
  dsimp only
  cases movedPorts (d.announced.innerOf nodeTopic) a.updates <;> rfl

theorem absorbInto_of_disconnected (d : Discovery) (t : RouteTable σ) (nodeTopic : String)
    {a : Announcement} (h : a.status = .disconnected) :
    d.absorbInto t nodeTopic a =
      ({ d with announced := d.announced.erase nodeTopic }, (t.removeHost a.host).1) := by
  unfold absorbInto absorb
  rw [h]
  rfl

theorem known?_absorbInto_of_ne (d : Discovery) (t : RouteTable σ) {nodeTopic other : String}
    (a : Announcement) (h : nodeTopic ≠ other) (topic : String) :
    (d.absorbInto t nodeTopic a).1.known? other topic = d.known? other topic := by
  cases hs : a.status with
  | connected =>
    rw [absorbInto_of_connected d t nodeTopic hs, known?, KeyMap.innerOf_within, if_neg h]
    rfl
  | disconnected =>
    rw [absorbInto_of_disconnected d t nodeTopic hs, known?, KeyMap.innerOf, KeyMap.get?_erase,
      if_neg h]
    rfl

theorem known?_absorbInto (d : Discovery) (t : RouteTable σ) (nodeTopic : String)
    (a : Announcement) (topic : String) :
    (d.absorbInto t nodeTopic a).1.known? nodeTopic topic =
      match a.status with
      | .connected => ((a.topics.get? topic).map Capability.port).or (d.known? nodeTopic topic)
      | .disconnected => none := by
  cases hs : a.status with
  | connected =>
    rw [absorbInto_of_connected d t nodeTopic hs, known?, KeyMap.innerOf_within, if_pos rfl]
    exact get?_remember ..
  | disconnected =>
    rw [absorbInto_of_disconnected d t nodeTopic hs, known?, KeyMap.innerOf, KeyMap.get?_erase,
      if_pos rfl]
    rfl

theorem route?_absorbInto_of_ne (d : Discovery) (t : RouteTable σ) (nodeTopic : String)
    {a : Announcement} {host : String} (h : a.host ≠ host) (topic : String) (port : UInt16) :
    (d.absorbInto t nodeTopic a).2.route? topic host port = t.route? topic host port := by
  cases hs : a.status with
  | connected =>
    rw [absorbInto_of_connected d t nodeTopic hs, RouteTable.route?_retire, if_neg fun e => h e.1,
      RouteTable.route?_apply_of_forall_ne _ fun _ _ e => h e.2.1]
  | disconnected =>
    rw [absorbInto_of_disconnected d t nodeTopic hs, RouteTable.route?_removeHost, if_neg h]

/-- **What an announcement does to the routes of its host**, topic by topic: a topic that
it lists is served at the listed port, and no longer at the port that was known. -/
theorem route?_absorbInto_of_connected (d : Discovery) (t : RouteTable σ) (nodeTopic : String)
    {a : Announcement} (h : a.status = .connected) (topic : String) (port : UInt16) :
    (d.absorbInto t nodeTopic a).2.route? topic a.host port =
      match a.topics.get? topic with
      | none => t.route? topic a.host port
      | some c =>
        if port = c.port then some (RouteTable.updated a.host port c.protocol (t.route? topic a.host port))
        else if d.known? nodeTopic topic = some port then none
        else t.route? topic a.host port := by
  have moved : (topic, port) ∈ movedPorts (d.announced.innerOf nodeTopic) a.updates ↔
      (d.announced.innerOf nodeTopic).get? topic = some port ∧
        ∃ c, a.topics.get? topic = some c ∧ port ≠ c.port := mem_movedPorts_iff
  rw [absorbInto_of_connected d t nodeTopic h, RouteTable.route?_retire]
  cases listed : a.topics.get? topic with
  | none =>
    rw [if_neg fun retired => ?_, RouteTable.route?_apply_of_forall_ne _ fun u hu named => ?_]
    · rw [← named.1, mem_updates_iff.1 hu] at listed
      cases listed
    · obtain ⟨-, c, hc, -⟩ := moved.1 retired.2
      rw [listed] at hc
      cases hc
  | some c =>
    have mem : (⟨topic, c.port, c.protocol⟩ : RouteUpdate) ∈ a.updates := mem_updates_iff.2 listed
    by_cases here : port = c.port
    · subst here
      rw [if_neg fun retired => ?_]
      · simpa using t.route?_apply_of_mem a.host (updates_distinct a) mem
      · obtain ⟨-, c', hc', elsewhere⟩ := moved.1 retired.2
        rw [listed] at hc'
        exact elsewhere (congrArg Capability.port (Option.some.inj hc'))
    · -- the only update for the topic names another port
      have untouched : (t.apply a.host a.updates).1.route? topic a.host port =
          t.route? topic a.host port := by
        refine RouteTable.route?_apply_of_forall_ne _ fun u hu named => here ?_
        have hu := mem_updates_iff.1 hu
        rw [named.1, listed] at hu
        rw [← named.2.2]
        exact (congrArg Capability.port (Option.some.inj hu)).symm
      dsimp only
      rw [if_neg here, untouched]
      by_cases known : d.known? nodeTopic topic = some port
      · rw [if_pos ⟨rfl, moved.2 ⟨known, c, listed, here⟩⟩, if_pos known]
      · rw [if_neg fun retired => known (moved.1 retired.2).1, if_neg known]

/-- What an announcement leaves alone of its host's routes, if the table tracks it:
the routes of topics that it does not list. -/
theorem tracks_absorbInto {d : Discovery} {t : RouteTable σ} {nodeTopic : String}
    {a : Announcement} (tracks : d.Tracks t nodeTopic a.host) :
    (d.absorbInto t nodeTopic a).1.Tracks (d.absorbInto t nodeTopic a).2 nodeTopic a.host := by
  intro topic port there
  rw [known?_absorbInto]
  cases hs : a.status with
  | disconnected =>
    rw [absorbInto_of_disconnected d t nodeTopic hs, RouteTable.route?_removeHost,
      if_pos rfl] at there
    exact absurd rfl there
  | connected =>
    rw [route?_absorbInto_of_connected d t nodeTopic hs] at there
    cases hc : a.topics.get? topic with
    | none =>
      rw [hc] at there
      exact tracks topic port there
    | some c =>
      rw [hc] at there
      dsimp only at there
      split at there
      · next same =>
        rw [same]
        rfl
      · split at there
        · exact absurd rfl there
        · next unknown => exact absurd (tracks topic port there) unknown

theorem follows_absorbInto (d : Discovery) (t : RouteTable σ) (nodeTopic : String)
    (a : Announcement) : Follows (d.absorbInto t nodeTopic a).2 a.host a := by
  unfold Follows
  cases hs : a.status with
  | disconnected =>
    intro topic port
    rw [absorbInto_of_disconnected d t nodeTopic hs, RouteTable.route?_removeHost, if_pos rfl]
  | connected =>
    intro topic c hc
    refine ⟨RouteTable.updated a.host c.port c.protocol (t.route? topic a.host c.port), ?_,
      RouteTable.protocol_updated ..⟩
    rw [route?_absorbInto_of_connected d t nodeTopic hs, hc]
    exact if_pos rfl

/-- An announcement leaves every route with the labels that it is kept under. -/
theorem labelled_absorbInto (d : Discovery) {t : RouteTable σ} (labelled : t.Labelled)
    (nodeTopic : String) (a : Announcement) : (d.absorbInto t nodeTopic a).2.Labelled := by
  cases hs : a.status with
  | connected =>
    rw [absorbInto_of_connected d t nodeTopic hs]
    exact (labelled.apply a.host a.updates).retire a.host _
  | disconnected =>
    rw [absorbInto_of_disconnected d t nodeTopic hs]
    exact labelled.removeHost a.host

/-- A topic that an announcement lists has one line for the host in the listing, if
the table tracks the host and follows the announcement. -/
theorem lookup_of_follows {d : Discovery} {t : RouteTable σ} {nodeTopic : String}
    {a : Announcement} {host topic : String} {c : Capability} (labelled : t.Labelled)
    (tracks : d.Tracks t nodeTopic host) (follows : Follows t host a)
    (connected : a.status = .connected) (listed : a.topics.get? topic = some c) :
    ∃ session, (t.lookup topic).filter (fun e => e.host = host) =
      [⟨host, c.port, c.protocol, session⟩] := by
  unfold Follows at follows
  rw [connected] at follows
  obtain ⟨r, hr, hp⟩ := follows topic c listed
  have known := tracks topic c.port (by simp [hr])
  refine ⟨r.session, ?_⟩
  obtain ⟨hh, hn⟩ := labelled topic host c.port r hr
  rw [labelled.lookup_of_only_port hr fun other hother => ?_, ← hh, ← hn, ← hp]
  have := tracks topic other hother
  rw [known] at this
  exact (Option.some.inj this).symm

end TopicMesh.Discovery
