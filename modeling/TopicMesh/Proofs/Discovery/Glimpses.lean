import TopicMesh.Proofs.Discovery.Commuting

/-!
# What can be seen while an announcement is taken in

Nobody can look at the route table during a table operation, but an announcement may take
two: its routes are set, and then the ports that its node has moved away from are retired.
Whoever looks up a topic in between has a **glimpse** of the table (`glimpses`).

A single route is seen as it was or as it will be, never otherwise (`at?_of_glimpse`).  The
table as a whole is seen so, **at once**, unless the announcement both sets a route that
was not there and leaves one behind that was: then the second is still seen beside the
first (`atOnce_iff`).
-/

namespace TopicMesh

namespace RouteTable

variable {σ : Type} {t : RouteTable σ} {topic host : String} {port : UInt16}

/-! ## Changes that change nothing -/

theorem change_eq_self {f : Option (RouteEntry σ) → Option (RouteEntry σ)} {other : UInt16}
    (same : f (t.route? topic host port) = t.route? topic host port)
    (served : t.route? topic host other ≠ none) : t.change topic host port f = t := by
  rw [route?_eq] at same served
  have ports : (t.byTopic.innerOf topic).innerOf host ≠ .empty :=
    fun nothing => served (by rw [nothing]; rfl)
  have hosts : t.byTopic.innerOf topic ≠ .empty := fun nothing => ports (by rw [nothing]; rfl)
  have inner : changedIn host port f (t.byTopic.innerOf topic) = t.byTopic.innerOf topic :=
    KeyMap.within_eq_self (by rw [same, KeyMap.put_get?]) ports
  rw [change_eq, KeyMap.within_eq_self inner hosts]

theorem upsert_eq_self {protocol : Protocol}
    (known : t.protocol? ⟨topic, host, port⟩ = some protocol) :
    (t.upsert topic host port protocol).1 = t := by
  obtain ⟨r, found, same⟩ := Option.map_eq_some_iff.1 known
  have found : t.route? topic host port = some r := found
  have served : t.route? topic host port ≠ none := found ▸ Option.some_ne_none r
  have stays : some (updated host port protocol (t.route? topic host port)) =
      t.route? topic host port := by
    rw [found]
    exact congrArg some (if_pos same)
  exact change_eq_self (f := fun r => some (updated host port protocol r)) stays served

/-- **Updates change nothing just if all their routes are there.** -/
theorem apply_eq_self_iff {updates : List RouteUpdate}
    (distinct : updates.Pairwise fun u v => u.topic ≠ v.topic) :
    (t.apply host updates).1 = t ↔
      ∀ u ∈ updates, t.protocol? ⟨u.topic, host, u.port⟩ = some u.protocol := by
  constructor
  · intro same u there
    have set := t.route?_apply_of_mem host distinct there
    rw [same] at set
    rw [protocol?_of_at? (show t.at? ⟨u.topic, host, u.port⟩ = some _ from set), protocol_updated]
  · clear distinct
    intro known
    induction updates with
    | nil => rfl
    | cons u rest ih =>
      rw [apply_cons, upsert_eq_self (known u List.mem_cons_self),
        ih fun v there => known v (List.mem_cons_of_mem _ there)]

/-- **Retiring ports changes nothing just if there are no routes at them**, for topics that
the host serves at some port. -/
theorem retire_eq_self_iff {names : List (String × UInt16)}
    (served : ∀ name ∈ names, ∃ port, t.route? name.1 host port ≠ none) :
    (t.retire host names).1 = t ↔ ∀ name ∈ names, t.route? name.1 host name.2 = none := by
  constructor
  · intro same name there
    rw [← same, route?_retire, if_pos ⟨rfl, there⟩]
  · intro gone
    induction names with
    | nil => rfl
    | cons name rest ih =>
      obtain ⟨other, served_first⟩ := served name List.mem_cons_self
      have first : (t.change name.1 host name.2 fun _ => none) = t :=
        change_eq_self (gone name List.mem_cons_self).symm served_first
      rw [retire_cons, first, ih (fun v there => served v (List.mem_cons_of_mem _ there))
        fun v there => gone v (List.mem_cons_of_mem _ there)]

end RouteTable

namespace Discovery

variable {σ : Type}

/-- The table between the two operations of an announcement. -/
def halfway (t : RouteTable σ) (a : Announcement) : RouteTable σ :=
  (t.apply a.host a.updates).1

/-- **Whether an announcement sets a route that is not there** as it has it. -/
def News (t : RouteTable σ) (a : Announcement) : Prop :=
  ∃ topic cap, a.topics.get? topic = some cap ∧
    t.protocol? ⟨topic, a.host, cap.port⟩ ≠ some cap.protocol

/-- **Whether an announcement leaves a route behind**: at the port that its node had
announced for the topic before. -/
def LeftBehind (d : Discovery) (t : RouteTable σ) (node : String) (a : Announcement) : Prop :=
  ∃ topic cap port, a.topics.get? topic = some cap ∧ d.known? node topic = some port ∧
    port ≠ cap.port ∧ t.at? ⟨topic, a.host, port⟩ ≠ none

theorem halfway_eq_before_iff {t : RouteTable σ} {a : Announcement} :
    halfway t a = t ↔ ¬News t a := by
  unfold halfway
  rw [RouteTable.apply_eq_self_iff (updates_distinct a)]
  constructor
  · rintro all ⟨topic, cap, listed, unknown⟩
    exact unknown (all ⟨topic, cap.port, cap.protocol⟩ (mem_updates_iff.2 listed))
  · intro nothing u there
    by_contra unknown
    exact nothing ⟨u.topic, _, mem_updates_iff.1 there, unknown⟩

/-- A route at another port than the listed one is not touched by the updates. -/
theorem at?_halfway_of_ne {t : RouteTable σ} {a : Announcement} {topic : String}
    {cap : Capability} (listed : a.topics.get? topic = some cap) {port : UInt16}
    (ne : port ≠ cap.port) :
    (halfway t a).at? ⟨topic, a.host, port⟩ = t.at? ⟨topic, a.host, port⟩ := by
  refine RouteTable.route?_apply_of_forall_ne _ fun u there named => ne ?_
  have there := mem_updates_iff.1 there
  rw [named.1, listed] at there
  exact named.2.2.symm.trans (congrArg Capability.port (Option.some.inj there)).symm

/-- A topic that is listed is served halfway, at the listed port. -/
theorem at?_halfway_of_listed {t : RouteTable σ} {a : Announcement} {topic : String}
    {cap : Capability} (listed : a.topics.get? topic = some cap) :
    (halfway t a).at? ⟨topic, a.host, cap.port⟩ ≠ none := by
  have there : (⟨topic, cap.port, cap.protocol⟩ : RouteUpdate) ∈ a.updates :=
    mem_updates_iff.2 listed
  have set := t.route?_apply_of_mem a.host (updates_distinct a) there
  exact Option.ne_none_iff_exists'.2 ⟨_, set⟩

theorem halfway_eq_after_iff {d : Discovery} {t : RouteTable σ} {node : String}
    {a : Announcement} (connected : a.status = .connected) :
    halfway t a = (d.absorbInto t node a).2 ↔ ¬LeftBehind d t node a := by
  rw [absorbInto_of_connected d t node connected]
  have served : ∀ name ∈ movedPorts (d.announced.innerOf node) a.updates,
      ∃ port, (halfway t a).route? name.1 a.host port ≠ none := by
    rintro ⟨topic, port⟩ there
    obtain ⟨-, cap, listed, -⟩ := mem_movedPorts_iff.1 there
    exact ⟨cap.port, at?_halfway_of_listed listed⟩
  refine eq_comm.trans ((RouteTable.retire_eq_self_iff served).trans ?_)
  constructor
  · rintro gone ⟨topic, cap, port, listed, known, ne, there⟩
    rw [← at?_halfway_of_ne listed ne] at there
    exact there (gone (topic, port) (mem_movedPorts_iff.2 ⟨known, cap, listed, ne⟩))
  · rintro nothing ⟨topic, port⟩ there
    obtain ⟨known, cap, listed, ne⟩ := mem_movedPorts_iff.1 there
    by_contra still
    refine nothing ⟨topic, cap, port, listed, known, ne, ?_⟩
    rwa [← at?_halfway_of_ne listed ne]

/-- Halfway, each route is as before or as after the announcement. -/
theorem at?_halfway (d : Discovery) (t : RouteTable σ) (node : String) {a : Announcement}
    (connected : a.status = .connected) (p : Place) :
    (halfway t a).at? p = t.at? p ∨ (halfway t a).at? p = (d.absorbInto t node a).2.at? p := by
  rw [absorbInto_of_connected d t node connected]
  unfold RouteTable.at?
  rw [RouteTable.route?_retire]
  split
  · next retired =>
    obtain ⟨host, there⟩ := retired
    obtain ⟨-, cap, listed, ne⟩ := mem_movedPorts_iff.1 there
    left
    rw [← host]
    exact at?_halfway_of_ne listed ne
  · exact .inr rfl

end Discovery

namespace Outlook

open Discovery

variable {σ : Type} (c : DiscoveryConfig) (o : Outlook σ) (x : Parcel)

/-- **What others can see of the table while a payload is taken in**, in this order: the
table before the first operation, and the one after each. -/
def glimpses : List (RouteTable σ) :=
  match o.discovery.operations c x.1 x.2 with
  | .ok (_, ops) => TableOp.visible o.table ops
  | .error _ => [o.table]

variable [DecidableEq σ]

/-- **Whether a payload is taken in at once**: every glimpse is of the table before it or of
the one after it. -/
def AtOnce : Prop :=
  ∀ t ∈ o.glimpses c x, t = o.table ∨ t = (o.take c x).table

instance : Decidable (o.AtOnce c x) :=
  inferInstanceAs (Decidable (∀ t ∈ o.glimpses c x, _))

/-- Whether a payload brings an announcement that has news and leaves a route behind. -/
def Torn : Prop :=
  ∃ a, x.heard? c = some a ∧ a.status = .connected ∧ News o.table a ∧
    LeftBehind o.discovery o.table x.1 a

variable {c o x}

omit [DecidableEq σ] in
theorem glimpses_of_unheard (unheard : x.heard? c = none) : o.glimpses c x = [o.table] := by
  unfold Parcel.heard? at unheard
  unfold glimpses operations
  rcases h : Discovery.heard? c x.1 x.2 with fault | _ | a
  · rfl
  · rfl
  · simp [h] at unheard

omit [DecidableEq σ] in
theorem glimpses_of_heard {a : Announcement} (heard : x.heard? c = some a) :
    o.glimpses c x = TableOp.visible o.table (o.discovery.absorb x.1 a).2 := by
  unfold glimpses operations
  rw [Parcel.heard?_eq_some.1 heard]
  rfl

theorem glimpses_of_disconnected {a : Announcement}
    (heard : x.heard? c = some a) (left : a.status = .disconnected) :
    o.glimpses c x = [o.table, (o.take c x).table] := by
  rw [glimpses_of_heard heard, take_of_heard heard, absorbInto_of_disconnected _ _ _ left]
  unfold absorb
  rw [left]
  rfl

/-- While an announcement is taken in there are three tables to be seen; the last two are
one if nothing has moved. -/
theorem mem_glimpses_of_connected {a : Announcement}
    (heard : x.heard? c = some a) (connected : a.status = .connected)
    {t : RouteTable σ} :
    t ∈ o.glimpses c x ↔ t = o.table ∨ t = halfway o.table a ∨ t = (o.take c x).table := by
  rw [glimpses_of_heard heard, take_of_heard heard, absorbInto_of_connected _ _ _ connected]
  unfold absorb
  rw [connected]
  dsimp only
  cases movedPorts (o.discovery.announced.innerOf x.1) a.updates with
  | nil =>
    show t ∈ [o.table, halfway o.table a] ↔
      t = o.table ∨ t = halfway o.table a ∨ t = halfway o.table a
    rw [or_self, List.mem_pair]
  | cons name rest =>
    show t ∈ [o.table, halfway o.table a,
      ((halfway o.table a).retire a.host (name :: rest)).1] ↔ _
    rw [List.mem_cons, List.mem_pair]
    rfl

/-- **Each route is seen as it was or as it will be.** -/
theorem at?_of_glimpse {t : RouteTable σ} (seen : t ∈ o.glimpses c x) (p : Place) :
    t.at? p = o.table.at? p ∨ t.at? p = (o.take c x).table.at? p := by
  cases heard : x.heard? c with
  | none =>
    rw [glimpses_of_unheard heard, List.mem_singleton] at seen
    exact .inl (congrArg (fun t => t.at? p) seen)
  | some a =>
    cases status : a.status with
    | disconnected =>
      rw [glimpses_of_disconnected heard status, List.mem_pair] at seen
      rcases seen with rfl | rfl
      · exact .inl rfl
      · exact .inr rfl
    | connected =>
      rcases (mem_glimpses_of_connected heard status).1 seen with rfl | rfl | rfl
      · exact .inl rfl
      · rw [take_of_heard heard]
        exact at?_halfway o.discovery o.table x.1 status p
      · exact .inr rfl

theorem atOnce_iff_of_connected {a : Announcement}
    (heard : x.heard? c = some a) (connected : a.status = .connected) :
    o.AtOnce c x ↔ ¬News o.table a ∨ ¬LeftBehind o.discovery o.table x.1 a := by
  have after : (o.take c x).table = (o.discovery.absorbInto o.table x.1 a).2 := by
    rw [take_of_heard heard]
  rw [← halfway_eq_before_iff, ← halfway_eq_after_iff connected, ← after]
  constructor
  · intro once
    exact once _ ((mem_glimpses_of_connected heard connected).2 (.inr (.inl rfl)))
  · intro between t seen
    rcases (mem_glimpses_of_connected heard connected).1 seen with rfl | rfl | rfl
    · exact .inl rfl
    · exact between
    · exact .inr rfl

/-- **A payload is taken in at once unless it is torn.** -/
theorem atOnce_iff : o.AtOnce c x ↔ ¬o.Torn c x := by
  unfold Torn
  cases heard : x.heard? c with
  | none =>
    refine iff_of_true (fun t seen => ?_) (by simp)
    rw [glimpses_of_unheard heard, List.mem_singleton] at seen
    exact .inl seen
  | some a =>
    cases status : a.status with
    | disconnected =>
      refine iff_of_true (fun t seen => ?_) (by simp [status])
      rwa [glimpses_of_disconnected heard status, List.mem_pair] at seen
    | connected =>
      rw [atOnce_iff_of_connected heard status, ← not_and_or]
      simp [status]

/-- **What others see of a payload**: each route as it was or as it will be, and the whole
table so too unless the payload is torn. -/
theorem seen_at_once_iff :
    (∀ t ∈ o.glimpses c x, ∀ p,
        t.at? p = o.table.at? p ∨ t.at? p = (o.take c x).table.at? p) ∧
      (o.AtOnce c x ↔ ¬o.Torn c x) :=
  ⟨fun _ seen p => at?_of_glimpse seen p, atOnce_iff⟩

/-- A node serves a topic at a port. -/
def atPort (port : UInt16) : Announcement :=
  ⟨.connected, "h", .ofList [("t", ⟨.stream, port⟩)]⟩

/-- What comes to be known of the node at its first port. -/
def beforeMove : Outlook Nat :=
  run ⟨"me", "here", "d", true⟩ [.announced "d/n" (atPort 7000)]

/-- A node that moves is seen at both ports. -/
theorem not_always_atOnce :
    ¬∀ (c : DiscoveryConfig) (o : Outlook Nat) (x : Parcel), o.AtOnce c x := by
  intro always
  have once := always ⟨"me", "here", "d", true⟩ beforeMove
    ("d/n", (atPort 7001).encode.toOption.getD [])
  revert once
  decide +kernel

example : (beforeMove.glimpses ⟨"me", "here", "d", true⟩
      ("d/n", (atPort 7001).encode.toOption.getD [])).map (fun t => t.capabilities "t" "h") =
    [[⟨.stream, 7000⟩], [⟨.stream, 7000⟩, ⟨.stream, 7001⟩], [⟨.stream, 7001⟩]] := by
  decide +kernel

end Outlook

end TopicMesh
