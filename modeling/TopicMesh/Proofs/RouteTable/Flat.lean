import Mathlib.Logic.Function.Basic
import TopicMesh.Proofs.RouteTable.Listing

/-!
# A route table is a flat map

A **flat table** gives the route at each place and knows nothing of nesting.  What is
asked of a route table (`Call`) has a plain meaning there (`Flat.after`): an update sets
one place, an announcement the places it names, a departure clears the places of a
host, and so on.

After any calls a route table is the flat table after the same calls
(`represents_run`): place by place, in the listing of every topic, in the topics that it
knows and in the number of its routes.  Two invariants carry this.  The listings show no
empty part of the table, because there is none (`Pruned`), and the routes that they show
name the host and the port that they are kept under (`Labelled`).
-/

namespace TopicMesh.RouteTable

/-- What is asked of a table on behalf of announcements, and when routes are given up. -/
inductive Edit
  | upsert (p : Place) (protocol : Protocol)
  | apply (host : String) (updates : List RouteUpdate)
  | removeHost (host : String)
  | retire (host : String) (names : List (String × UInt16))
  | forgetTopic (topic : String)
  | clear
deriving DecidableEq, Repr

/-- What is asked of a table. -/
inductive Call (σ : Type)
  | edit (e : Edit)
  /-- The session of a route is wanted; a session is offered in case there is none that
  is still open. -/
  | use (p : Place) (closed : σ → Bool) (offered : σ)
  | detach (p : Place) (session : σ)

variable {σ : Type}

/-- The table after an edit, and the sessions that the edit displaces. -/
def edited (t : RouteTable σ) : Edit → RouteTable σ × List σ
  | .upsert p protocol =>
    let (t, displaced) := t.upsert p.topic p.host p.port protocol
    (t, displaced.toList)
  | .apply host updates => t.apply host updates
  | .removeHost host => t.removeHost host
  | .retire host names => t.retire host names
  | .forgetTopic topic => t.forgetTopic topic
  | .clear => t.clear

/-- The table after a call. -/
def after [DecidableEq σ] (t : RouteTable σ) : Call σ → RouteTable σ
  | .edit e => (t.edited e).1
  | .use p closed offered => (t.sessionOrInsert closed p.topic p.host p.port offered).1
  | .detach p session => (t.detach p.topic p.host p.port session).1

/-- The table after some calls. -/
def run [DecidableEq σ] (t : RouteTable σ) (calls : List (Call σ)) : RouteTable σ :=
  calls.foldl after t

/-! ## The flat table -/

/-- What a flat table says of a place. -/
structure Route (σ : Type) where
  protocol : Protocol
  session : Option σ
deriving DecidableEq, Repr

/-- **A flat table**: the route at each place. -/
abbrev Flat (σ : Type) := Place → Option (Route σ)

namespace Flat

/-- No routes. -/
def empty : Flat σ := fun _ => none

/-- A place gets a protocol.  Its session stays just if the protocol is the old one. -/
def upsert (f : Flat σ) (p : Place) (protocol : Protocol) : Flat σ :=
  Function.update f p
    (some ⟨protocol, ((f p).filter fun r => r.protocol = protocol).bind Route.session⟩)

/-- A place that has a route gets another session. -/
def assign (f : Flat σ) (p : Place) (session : Option σ) : Flat σ :=
  Function.update f p ((f p).map fun r => ⟨r.protocol, session⟩)

/-- The flat table after an edit. -/
def edited (f : Flat σ) : Edit → Flat σ
  | .upsert p protocol => f.upsert p protocol
  | .apply host updates =>
    updates.foldl (fun f u => f.upsert ⟨u.topic, host, u.port⟩ u.protocol) f
  | .removeHost host => fun p => if host = p.host then none else f p
  | .retire host names => fun p =>
    if host = p.host ∧ (p.topic, p.port) ∈ names then none else f p
  | .forgetTopic topic => fun p => if topic = p.topic then none else f p
  | .clear => empty

/-- The flat table after a call.  An offered session is taken if the route holds none
that is still open; a session is detached only by its own name. -/
def after [DecidableEq σ] (f : Flat σ) : Call σ → Flat σ
  | .edit e => f.edited e
  | .use p closed offered =>
    if ((f p).bind Route.session).all closed then f.assign p (some offered) else f
  | .detach p session =>
    if (f p).bind Route.session = some session then f.assign p none else f

/-- The flat table after some calls. -/
def run [DecidableEq σ] (f : Flat σ) (calls : List (Call σ)) : Flat σ :=
  calls.foldl after f

end Flat

/-- Whether a table keeps no topic without hosts and no host without ports. -/
structure Pruned (t : RouteTable σ) : Prop where
  hosts : t.byTopic.NoneEmpty
  ports : ∀ topic, (t.byTopic.innerOf topic).NoneEmpty

/-- **Whether a table is a flat table in all of its readings.** -/
structure Represents (t : RouteTable σ) (f : Flat σ) : Prop where
  /-- A route names the host and the port of its place. -/
  route : ∀ p, t.route? p.topic p.host p.port =
    (f p).map fun r => ⟨p.host, p.port, r.protocol, r.session⟩
  /-- A topic is listed with the routes at its places. -/
  lookup : ∀ topic e, e ∈ t.lookup topic ↔
    f ⟨topic, e.host, e.port⟩ = some ⟨e.protocol, e.session⟩
  /-- A listing ascends strictly by the bytes of the host and then by the port. -/
  lookup_ascending : ∀ topic, (t.lookup topic).Pairwise fun a b =>
    Utf8.encode a.host < Utf8.encode b.host ∨ a.host = b.host ∧ a.port < b.port
  topics : ∀ topic, topic ∈ t.topics ↔ ∃ host port, f ⟨topic, host, port⟩ ≠ none
  topics_ascending : t.topics.Pairwise fun a b => Utf8.encode a < Utf8.encode b
  /-- The size is the number of places that have a route. -/
  size : ∃ places : List Place, places.Nodup ∧ (∀ p, p ∈ places ↔ f p ≠ none) ∧
    t.size = places.length
  pruned : t.Pruned

/-! ## Nothing empty is kept -/

theorem pruned_empty : (empty : RouteTable σ).Pruned :=
  ⟨KeyMap.noneEmpty_empty, fun _ => KeyMap.noneEmpty_empty⟩

theorem Pruned.change {t : RouteTable σ} (pruned : t.Pruned) (topic host : String)
    (port : UInt16) (f : Option (RouteEntry σ) → Option (RouteEntry σ)) :
    (t.change topic host port f).Pruned := by
  refine ⟨KeyMap.noneEmpty_within pruned.hosts topic _, fun other => ?_⟩
  unfold RouteTable.change
  rw [KeyMap.innerOf_within]
  split
  · exact KeyMap.noneEmpty_within (pruned.ports topic) host _
  · exact pruned.ports other

/-- What is left of an inner map when a key is struck out of all of them. -/
theorem noneEmpty_erase {hosts : HostMap σ} (h : hosts.NoneEmpty) (host : String) :
    (hosts.erase host).NoneEmpty := by
  intro other ports there
  rw [KeyMap.get?_erase] at there
  split at there
  · cases there
  · exact h other ports there

theorem Pruned.removeHost {t : RouteTable σ} (pruned : t.Pruned) (host : String) :
    (t.removeHost host).1.Pruned := by
  refine ⟨KeyMap.noneEmpty_everywhere t.byTopic _, fun topic => ?_⟩
  unfold RouteTable.removeHost
  dsimp only
  rw [KeyMap.innerOf_everywhere _ _ (KeyMap.erase_empty host)]
  exact noneEmpty_erase (pruned.ports topic) host

theorem Pruned.forgetTopic {t : RouteTable σ} (pruned : t.Pruned) (topic : String) :
    (t.forgetTopic topic).1.Pruned := by
  constructor
  · intro other hosts there
    change (t.byTopic.erase topic).get? other = some hosts at there
    rw [KeyMap.get?_erase] at there
    split at there
    · cases there
    · exact pruned.hosts other hosts there
  · intro other
    show ((t.byTopic.erase topic).innerOf other).NoneEmpty
    rw [KeyMap.innerOf_erase]
    split
    · exact KeyMap.noneEmpty_empty
    · exact pruned.ports other

theorem Pruned.apply {t : RouteTable σ} (pruned : t.Pruned) (host : String)
    (updates : List RouteUpdate) : (t.apply host updates).1.Pruned := by
  induction updates generalizing t with
  | nil => exact pruned
  | cons u rest ih => exact ih (pruned.change u.topic host u.port _)

theorem Pruned.retire {t : RouteTable σ} (pruned : t.Pruned) (host : String)
    (names : List (String × UInt16)) : (t.retire host names).1.Pruned := by
  induction names generalizing t with
  | nil => exact pruned
  | cons name rest ih => exact ih (pruned.change name.1 host name.2 _)

/-! ## One call -/

theorem at?_change (t : RouteTable σ) (p q : Place)
    (f : Option (RouteEntry σ) → Option (RouteEntry σ)) :
    (t.change p.topic p.host p.port f).at? q = if q = p then f (t.at? p) else t.at? q := by
  unfold at?
  rw [route?_change]
  by_cases same : q = p
  · subst same
    rw [if_pos ⟨rfl, rfl, rfl⟩, if_pos rfl]
  · rw [if_neg same, if_neg]
    rintro ⟨topic, host, port⟩
    obtain ⟨t, h, n⟩ := p
    obtain ⟨t', h', n'⟩ := q
    cases topic
    cases host
    cases port
    exact same rfl

theorem at?_forgetTopic (t : RouteTable σ) (topic : String) (p : Place) :
    (t.forgetTopic topic).1.at? p = if topic = p.topic then none else t.at? p := by
  unfold at?
  rw [route?_eq, route?_eq]
  show (((t.byTopic.erase topic).innerOf p.topic).innerOf p.host).get? p.port = _
  rw [KeyMap.innerOf_erase]
  split <;> rfl

/-- The flat table of a table: its routes without their labels. -/
def flat (t : RouteTable σ) : Flat σ := fun p =>
  (t.at? p).map fun r => ⟨r.protocol, r.session⟩

theorem bind_flat (t : RouteTable σ) (p : Place) : (t.flat p).bind Route.session = t.holder? p := by
  unfold flat holder?
  cases t.at? p <;> rfl

/-- A route that is dropped from a table is dropped from the flat table. -/
theorem flat_of_drop {t t' : RouteTable σ} {p : Place} {c : Prop} [Decidable c]
    (dropped : t'.at? p = if c then none else t.at? p) :
    t'.flat p = if c then none else t.flat p := by
  unfold flat
  rw [dropped]
  split <;> rfl

theorem flat_upsert (t : RouteTable σ) (p : Place) (protocol : Protocol) :
    (t.upsert p.topic p.host p.port protocol).1.flat = Flat.upsert t.flat p protocol := by
  -- either way the session stays just if the protocol is the old one
  have session : (updated p.host p.port protocol (t.at? p)).session =
      ((t.flat p).filter fun r => r.protocol = protocol).bind Route.session := by
    unfold flat
    cases t.at? p with
    | none => rfl
    | some r =>
      by_cases same : r.protocol = protocol
      · simp [updated, Option.filter, same]
      · simp [updated, Option.filter, same]
  funext q
  show ((t.change p.topic p.host p.port fun r => some (updated p.host p.port protocol r)).at? q).map
    _ = _
  rw [at?_change, Flat.upsert, Function.update_apply]
  split
  · rw [Option.map_some, protocol_updated, session]
  · rfl

theorem flat_apply (t : RouteTable σ) (host : String) (updates : List RouteUpdate) :
    (t.apply host updates).1.flat = Flat.edited t.flat (.apply host updates) := by
  induction updates generalizing t with
  | nil => rfl
  | cons u rest ih =>
    rw [apply_cons, ih]
    show List.foldl _ _ rest =
      List.foldl _ (Flat.upsert t.flat ⟨u.topic, host, u.port⟩ u.protocol) rest
    rw [← flat_upsert]

/-- An edit does to a table what it does to the flat table. -/
theorem flat_edited (t : RouteTable σ) (e : Edit) : (t.edited e).1.flat = Flat.edited t.flat e := by
  cases e with
  | upsert p protocol => exact flat_upsert t p protocol
  | apply host updates => exact flat_apply t host updates
  | removeHost host =>
    exact funext fun p => flat_of_drop (route?_removeHost t host p.topic p.host p.port)
  | retire host names =>
    exact funext fun p => flat_of_drop (route?_retire t host names p.topic p.host p.port)
  | forgetTopic topic => exact funext fun p => flat_of_drop (at?_forgetTopic t topic p)
  | clear => rfl

/-- Giving a route another session. -/
theorem flat_assign (t : RouteTable σ) (p : Place) (session : Option σ) :
    (t.change p.topic p.host p.port fun r => r.map fun r => { r with session := session }).flat =
      Flat.assign t.flat p session := by
  funext q
  unfold flat
  rw [at?_change, Flat.assign, Function.update_apply]
  split
  · rw [Option.map_map, Option.map_map]
    rfl
  · rfl

/-- What becomes of a table when a session of a route is wanted. -/
theorem sessionOrInsert_cases (t : RouteTable σ) (closed : σ → Bool) (p : Place) (offered : σ) :
    t.at? p = none ∧ t.sessionOrInsert closed p.topic p.host p.port offered = (t, none) ∨
    (∃ s, t.holder? p = some s ∧ closed s = false ∧
      t.sessionOrInsert closed p.topic p.host p.port offered = (t, some (s, false))) ∨
    (t.at? p ≠ none ∧ (t.holder? p).all closed = true ∧
      t.sessionOrInsert closed p.topic p.host p.port offered =
        (t.attach p.topic p.host p.port offered, some (offered, true))) := by
  unfold sessionOrInsert tenancy holder? at?
  cases t.route? p.topic p.host p.port with
  | none => exact .inl ⟨rfl, rfl⟩
  | some r =>
    cases hs : r.session with
    | none => exact .inr (.inr ⟨nofun, by simp [hs], by simp [hs]⟩)
    | some s =>
      cases open_ : closed s with
      | false => exact .inr (.inl ⟨s, hs, open_, by simp [hs, open_]⟩)
      | true => exact .inr (.inr ⟨nofun, by simp [hs, open_], by simp [hs, open_]⟩)

theorem flat_attach (t : RouteTable σ) (p : Place) (offered : σ) :
    (t.attach p.topic p.host p.port offered).flat = Flat.assign t.flat p (some offered) :=
  flat_assign t p (some offered)

section

variable [DecidableEq σ]

/-- A call does to a table what it does to the flat table. -/
theorem flat_after (t : RouteTable σ) (c : Call σ) : (t.after c).flat = Flat.after t.flat c := by
  cases c with
  | edit e => exact flat_edited t e
  | use p closed offered =>
    show (t.sessionOrInsert closed p.topic p.host p.port offered).1.flat =
      if ((t.flat p).bind Route.session).all closed then Flat.assign t.flat p (some offered)
      else t.flat
    rw [bind_flat]
    rcases t.sessionOrInsert_cases closed p offered with
      ⟨absent, is⟩ | ⟨s, held, open_, is⟩ | ⟨-, vacant, is⟩
    · -- there is no route that a session could be assigned to
      have absent : t.flat p = none := Option.map_eq_none_iff.2 absent
      have unchanged : Flat.assign t.flat p (some offered) = t.flat := by
        rw [Flat.assign, absent]
        exact Function.update_eq_self_iff.2 absent.symm
      rw [is, unchanged, ite_self]
    · rw [is, held, Option.all_some, open_]
      rfl
    · rw [is, vacant, if_pos rfl, flat_attach]
  | detach p session =>
    show (t.detach p.topic p.host p.port session).1.flat =
      if (t.flat p).bind Route.session = some session then Flat.assign t.flat p none else t.flat
    rw [bind_flat]
    unfold detach holder? at?
    split
    · exact flat_assign t p none
    · rfl

omit [DecidableEq σ] in
theorem Pruned.edited {t : RouteTable σ} (pruned : t.Pruned) (e : Edit) :
    (t.edited e).1.Pruned := by
  cases e with
  | upsert p protocol =>
    exact pruned.change p.topic p.host p.port fun r => some (updated p.host p.port protocol r)
  | apply host updates => exact pruned.apply host updates
  | removeHost host => exact pruned.removeHost host
  | retire host names => exact pruned.retire host names
  | forgetTopic topic => exact pruned.forgetTopic topic
  | clear => exact pruned_empty

theorem Pruned.after {t : RouteTable σ} (pruned : t.Pruned) (c : Call σ) : (t.after c).Pruned := by
  cases c with
  | edit e => exact pruned.edited e
  | use p closed offered =>
    show (t.sessionOrInsert closed p.topic p.host p.port offered).1.Pruned
    rcases t.sessionOrInsert_cases closed p offered with
      ⟨-, is⟩ | ⟨s, -, -, is⟩ | ⟨-, -, is⟩
    · rwa [is]
    · rwa [is]
    · rw [is]
      exact pruned.change p.topic p.host p.port _
  | detach p session =>
    show (t.detach p.topic p.host p.port session).1.Pruned
    unfold detach
    split
    · exact pruned.change p.topic p.host p.port _
    · exact pruned

end

/-! ## The labels stay -/

theorem Labelled.forgetTopic {t : RouteTable σ} (labelled : t.Labelled) (topic : String) :
    (t.forgetTopic topic).1.Labelled := by
  refine labelled.drop fun topic' host port => ?_
  have dropped := t.at?_forgetTopic topic ⟨topic', host, port⟩
  split at dropped
  · exact .inl dropped
  · exact .inr dropped

theorem Labelled.assign {t : RouteTable σ} (labelled : t.Labelled) (p : Place)
    (session : Option σ) :
    (t.change p.topic p.host p.port fun r =>
      r.map fun r => { r with session := session }).Labelled := by
  refine labelled.change fun r assigned => ?_
  obtain ⟨old, found, rfl⟩ := Option.map_eq_some_iff.1 assigned
  exact labelled p.topic p.host p.port old found

theorem Labelled.edited {t : RouteTable σ} (labelled : t.Labelled) (e : Edit) :
    (t.edited e).1.Labelled := by
  cases e with
  | upsert p protocol => exact labelled.upsert p.topic p.host p.port protocol
  | apply host updates => exact labelled.apply host updates
  | removeHost host => exact labelled.removeHost host
  | retire host names => exact labelled.retire host names
  | forgetTopic topic => exact labelled.forgetTopic topic
  | clear => exact labelled_empty

theorem Labelled.after [DecidableEq σ] {t : RouteTable σ} (labelled : t.Labelled) (c : Call σ) :
    (t.after c).Labelled := by
  cases c with
  | edit e => exact labelled.edited e
  | use p closed offered =>
    show (t.sessionOrInsert closed p.topic p.host p.port offered).1.Labelled
    rcases t.sessionOrInsert_cases closed p offered with
      ⟨-, is⟩ | ⟨s, -, -, is⟩ | ⟨-, -, is⟩
    · rwa [is]
    · rwa [is]
    · rw [is]
      exact labelled.assign p (some offered)
  | detach p session =>
    show (t.detach p.topic p.host p.port session).1.Labelled
    unfold detach
    split
    · exact labelled.assign p none
    · exact labelled

/-! ## The readings of a pruned table -/

theorem Pruned.mem_topics_iff {t : RouteTable σ} (pruned : t.Pruned) (topic : String) :
    topic ∈ t.topics ↔ ∃ host port, t.at? ⟨topic, host, port⟩ ≠ none := by
  unfold topics
  rw [KeyMap.mem_keys_iff]
  constructor
  · rintro ⟨hosts, there⟩
    -- a topic that is kept has a host, and that has a port
    obtain ⟨host, ports, hostThere⟩ := KeyMap.exists_of_not_isEmpty (pruned.hosts topic hosts there)
    have inner := pruned.ports topic host ports
    rw [KeyMap.innerOf_eq_of_get? there] at inner
    obtain ⟨port, r, portThere⟩ := KeyMap.exists_of_not_isEmpty (inner hostThere)
    refine ⟨host, port, ?_⟩
    rw [at?, route?_eq, KeyMap.innerOf_eq_of_get? there, KeyMap.innerOf_eq_of_get? hostThere,
      portThere]
    exact Option.some_ne_none r
  · rintro ⟨host, port, found⟩
    cases h : t.byTopic.get? topic with
    | some hosts => exact ⟨hosts, rfl⟩
    | none =>
      rw [at?, route?_eq, KeyMap.innerOf, KeyMap.innerOf, h] at found
      exact absurd rfl found

/-- A labelled route is the route of the flat table with the labels of its place. -/
theorem Labelled.route?_eq_flat {t : RouteTable σ} (labelled : t.Labelled) (p : Place) :
    t.route? p.topic p.host p.port =
      (t.flat p).map fun r => ⟨p.host, p.port, r.protocol, r.session⟩ := by
  unfold flat at?
  cases found : t.route? p.topic p.host p.port with
  | none => rfl
  | some r =>
    obtain ⟨host, port⟩ := labelled p.topic p.host p.port r found
    rw [← host, ← port]
    rfl

theorem Labelled.mem_lookup_iff_flat {t : RouteTable σ} (labelled : t.Labelled) (topic : String)
    (e : RouteEntry σ) :
    e ∈ t.lookup topic ↔ t.flat ⟨topic, e.host, e.port⟩ = some ⟨e.protocol, e.session⟩ := by
  constructor
  · intro listed
    have found : t.at? ⟨topic, e.host, e.port⟩ = some e := labelled.route?_of_mem_lookup listed
    rw [flat, found]
    rfl
  · intro found
    refine mem_lookup_iff.2 ⟨e.host, e.port, ?_⟩
    rw [labelled.route?_eq_flat ⟨topic, e.host, e.port⟩, found]
    rfl

/-- A labelled table lists the routes of a topic by the bytes of their hosts and by port. -/
theorem Labelled.lookup_ascending {t : RouteTable σ} (labelled : t.Labelled) (topic : String) :
    (t.lookup topic).Pairwise fun a b =>
      Utf8.encode a.host < Utf8.encode b.host ∨ a.host = b.host ∧ a.port < b.port := by
  rw [lookup_eq_routes]
  refine List.pairwise_map.2 ((t.routes_ascending.filter _).imp_of_mem fun {a b} ha hb before => ?_)
  obtain ⟨listedA, topicA⟩ := List.mem_filter.1 ha
  obtain ⟨listedB, topicB⟩ := List.mem_filter.1 hb
  obtain ⟨hostA, portA⟩ := labelled _ _ _ _ (t.mem_routes_iff.1 listedA)
  obtain ⟨hostB, portB⟩ := labelled _ _ _ _ (t.mem_routes_iff.1 listedB)
  rw [hostA, portA, hostB, portB]
  rcases before with topics | ⟨-, rest⟩
  · rw [of_decide_eq_true topicA, of_decide_eq_true topicB] at topics
    exact absurd topics (List.lt_irrefl _)
  · exact rest

/-- **A pruned and labelled table is the flat table of its routes.** -/
theorem Pruned.represents {t : RouteTable σ} (pruned : t.Pruned) (labelled : t.Labelled) :
    t.Represents t.flat where
  route := labelled.route?_eq_flat
  lookup := labelled.mem_lookup_iff_flat
  lookup_ascending := labelled.lookup_ascending
  topics topic := by
    simp only [flat, ne_eq, Option.map_eq_none_iff]
    exact pruned.mem_topics_iff topic
  topics_ascending :=
    List.pairwise_map.2 (t.byTopic.ascending.imp fun lt =>
      Utf8.encode_lt (compareOfLessAndEq_eq_lt.1 lt))
  size := by
    refine ⟨t.routes.map Prod.fst, t.places_nodup, fun p => ?_, ?_⟩
    · rw [List.mem_map, flat, ne_eq, Option.map_eq_none_iff, ← ne_eq, Option.ne_none_iff_exists']
      constructor
      · rintro ⟨⟨p, r⟩, there, rfl⟩
        exact ⟨r, t.mem_routes_iff.1 there⟩
      · rintro ⟨r, found⟩
        exact ⟨(p, r), t.mem_routes_iff.2 found, rfl⟩
    · rw [List.length_map, size_eq_routes]
  pruned := pruned

/-! ## A run -/

variable [DecidableEq σ]

theorem Pruned.run {t : RouteTable σ} (pruned : t.Pruned) (calls : List (Call σ)) :
    (t.run calls).Pruned :=
  List.foldlRecOn (motive := Pruned) calls RouteTable.after pruned
    fun _ pruned c _ => pruned.after c

theorem Labelled.run {t : RouteTable σ} (labelled : t.Labelled) (calls : List (Call σ)) :
    (t.run calls).Labelled :=
  List.foldlRecOn (motive := Labelled) calls RouteTable.after labelled
    fun _ labelled c _ => labelled.after c

theorem flat_run (t : RouteTable σ) (calls : List (Call σ)) :
    (t.run calls).flat = Flat.run t.flat calls := by
  induction calls generalizing t with
  | nil => rfl
  | cons c rest ih =>
    show ((t.after c).run rest).flat = Flat.run (Flat.after t.flat c) rest
    rw [ih, flat_after]

/-- **A route table is a flat map.**  After any calls it is, in all of its readings, the
flat table after the same calls. -/
theorem represents_run (calls : List (Call σ)) :
    ((empty : RouteTable σ).run calls).Represents (Flat.empty.run calls) := by
  have pruned := (pruned_empty (σ := σ)).run calls
  have flat := pruned.represents (labelled_empty.run calls)
  rwa [flat_run] at flat

end TopicMesh.RouteTable
