import Mathlib.Data.List.Basic
import TopicMesh.Proofs.RouteTable.Reading
import TopicMesh.Proofs.Text.Utf8

/-!
# The routes of a table in one list

A route stands at a **place**: a topic, a host and a port.  `routes` lists all routes
with their places, in the order of the places (`routes_ascending`), each once, and just
those that are looked up (`mem_routes_iff`).  The listing of a topic, the number of
routes and the sessions of the table or of a part of it are read off this one list.
-/

namespace TopicMesh

/-- Where a route stands. -/
structure Place where
  topic : String
  host : String
  port : UInt16
deriving DecidableEq, Repr

namespace KeyMap

variable {κ ν : Type} [Ord κ]

/-- What is listed for each entry of a map in turn is in an order if it is for every
entry, and all that is listed for an earlier key comes before what is for a later one. -/
theorem pairwise_flatMap_entries {α : Type} {R : α → α → Prop} (m : KeyMap κ ν)
    (list : κ × ν → List α) (inner : ∀ e ∈ m.entries, (list e).Pairwise R)
    (outer : ∀ e ∈ m.entries, ∀ e' ∈ m.entries, compare e.1 e'.1 = .lt →
      ∀ a ∈ list e, ∀ b ∈ list e', R a b) :
    (m.entries.flatMap list).Pairwise R :=
  List.pairwise_flatMap.2
    ⟨inner, m.ascending.imp_of_mem fun {e e'} there there' lt => outer e there e' there' lt⟩

/-- What holds of the inner map of a key, and not of the empty map, holds of an entry. -/
theorem exists_entry_iff [Std.LawfulEqOrd κ] {κ' : Type} [Ord κ'] {m : KeyMap κ (KeyMap κ' ν)}
    {k : κ} (holds : KeyMap κ' ν → Prop) (not_empty : ¬holds empty) :
    (∃ e ∈ m.entries, k = e.1 ∧ holds e.2) ↔ holds (m.innerOf k) := by
  constructor
  · rintro ⟨⟨k, inner⟩, there, rfl, found⟩
    rwa [innerOf_eq_of_get? (mem_entries_iff.1 there)]
  · intro found
    cases h : m.get? k with
    | none =>
      rw [innerOf, h] at found
      exact absurd found not_empty
    | some inner =>
      rw [innerOf_eq_of_get? h] at found
      exact ⟨(k, inner), mem_entries_iff.2 h, rfl, found⟩

end KeyMap

namespace RouteTable

variable {σ : Type} (t : RouteTable σ)

/-- The route at a place. -/
def at? (p : Place) : Option (RouteEntry σ) :=
  t.route? p.topic p.host p.port

/-- The session that the route at a place holds. -/
def holder? (p : Place) : Option σ :=
  (t.at? p).bind RouteEntry.session

/-- The routes of some ports of a host, with their places. -/
def routesOfPorts (topic host : String) (ports : PortMap σ) : List (Place × RouteEntry σ) :=
  ports.entries.map fun e => (⟨topic, host, e.1⟩, e.2)

/-- The routes of some hosts, with their places. -/
def routesOfHosts (topic : String) (hosts : HostMap σ) : List (Place × RouteEntry σ) :=
  hosts.entries.flatMap fun e => routesOfPorts topic e.1 e.2

/-- **All routes with their places.** -/
def routes : List (Place × RouteEntry σ) :=
  t.byTopic.entries.flatMap fun e => routesOfHosts e.1 e.2

end RouteTable

/-- Whether a place comes before another: by topic, then by host, then by port, with
texts in the order of their bytes. -/
def Place.Before (p q : Place) : Prop :=
  Utf8.encode p.topic < Utf8.encode q.topic ∨
    p.topic = q.topic ∧ (Utf8.encode p.host < Utf8.encode q.host ∨
      p.host = q.host ∧ p.port < q.port)

theorem Place.Before.ne {p q : Place} (h : p.Before q) : p ≠ q := by
  rintro rfl
  rcases h with topic | ⟨-, host | ⟨-, port⟩⟩
  · exact List.lt_irrefl _ topic
  · exact List.lt_irrefl _ host
  · exact UInt16.lt_irrefl _ port

theorem Place.Before.asymm {p q : Place} (h : p.Before q) : ¬q.Before p := by
  have bytes : ∀ {a b : String}, Utf8.encode a < Utf8.encode b → ¬Utf8.encode b < Utf8.encode a :=
    fun lt lt' => List.lt_asymm lt lt'
  unfold Before at h ⊢
  grind [List.lt_irrefl, UInt16.lt_asymm]

namespace RouteTable

variable {σ : Type} (t : RouteTable σ)

theorem mem_routesOfPorts_iff {topic host : String} {ports : PortMap σ} {p : Place} {r : RouteEntry σ} :
    (p, r) ∈ routesOfPorts topic host ports ↔
      p.topic = topic ∧ p.host = host ∧ ports.get? p.port = some r := by
  unfold routesOfPorts
  rw [List.mem_map, ← KeyMap.mem_entries_iff]
  constructor
  · rintro ⟨e, there, same⟩
    cases same
    exact ⟨rfl, rfl, there⟩
  · rintro ⟨rfl, rfl, there⟩
    exact ⟨_, there, rfl⟩

theorem mem_routesOfHosts_iff {topic : String} {hosts : HostMap σ} {p : Place} {r : RouteEntry σ} :
    (p, r) ∈ routesOfHosts topic hosts ↔
      p.topic = topic ∧ (hosts.innerOf p.host).get? p.port = some r := by
  unfold routesOfHosts
  rw [List.mem_flatMap, ← KeyMap.exists_entry_iff fun ports : PortMap σ => ports.get? p.port = some r]
  · simp only [mem_routesOfPorts_iff]
    exact ⟨fun ⟨e, there, same, found⟩ => ⟨same, e, there, found⟩,
      fun ⟨same, e, there, found⟩ => ⟨e, there, same, found⟩⟩
  · exact nofun

theorem mem_routes_iff {p : Place} {r : RouteEntry σ} : (p, r) ∈ t.routes ↔ t.at? p = some r := by
  unfold routes at?
  rw [List.mem_flatMap, route?_eq, ← KeyMap.exists_entry_iff
    fun hosts : HostMap σ => (hosts.innerOf p.host).get? p.port = some r]
  · simp only [mem_routesOfHosts_iff]
  · exact nofun

/-! ## The order -/

theorem routesOfPorts_ascending (topic host : String) (ports : PortMap σ) :
    (routesOfPorts topic host ports).Pairwise fun a b => a.1.Before b.1 := by
  refine List.pairwise_map.2 (ports.ascending.imp fun {a b} lt => ?_)
  exact .inr ⟨rfl, .inr ⟨rfl, compareOfLessAndEq_eq_lt.1 lt⟩⟩

theorem routesOfHosts_ascending (topic : String) (hosts : HostMap σ) :
    (routesOfHosts topic hosts).Pairwise fun a b => a.1.Before b.1 := by
  refine hosts.pairwise_flatMap_entries _ (fun e _ => routesOfPorts_ascending topic e.1 e.2) ?_
  intro e _ e' _ lt a ha b hb
  obtain ⟨topicA, hostA, -⟩ := mem_routesOfPorts_iff.1 ha
  obtain ⟨topicB, hostB, -⟩ := mem_routesOfPorts_iff.1 hb
  refine .inr ⟨topicA.trans topicB.symm, .inl ?_⟩
  rw [hostA, hostB]
  exact Utf8.encode_lt (compareOfLessAndEq_eq_lt.1 lt)

/-- **The routes are listed in the order of their places.** -/
theorem routes_ascending : t.routes.Pairwise fun a b => a.1.Before b.1 := by
  refine t.byTopic.pairwise_flatMap_entries _ (fun e _ => routesOfHosts_ascending e.1 e.2) ?_
  intro e _ e' _ lt a ha b hb
  left
  rw [(mem_routesOfHosts_iff.1 ha).1, (mem_routesOfHosts_iff.1 hb).1]
  exact Utf8.encode_lt (compareOfLessAndEq_eq_lt.1 lt)

theorem places_nodup : (t.routes.map Prod.fst).Nodup :=
  List.pairwise_map.2 (t.routes_ascending.imp Place.Before.ne)

theorem routes_nodup : t.routes.Nodup :=
  List.Pairwise.of_map Prod.fst (fun _ _ ne same => ne (congrArg Prod.fst same)) t.places_nodup

/-! ## Parts of the list -/

theorem routes_of_topic (topic : String) :
    t.routes.filter (fun e => e.1.topic = topic) =
      routesOfHosts topic (t.byTopic.innerOf topic) := by
  refine t.byTopic.filter_flatMap_entries routesOfHosts _ topic (fun _ _ e he => ?_) rfl
  rw [(mem_routesOfHosts_iff.1 he).1]

theorem routes_of_host (host : String) :
    t.routes.filter (fun e => e.1.host = host) =
      t.byTopic.entries.flatMap fun e => routesOfPorts e.1 host (e.2.innerOf host) := by
  unfold routes
  rw [List.filter_flatMap]
  refine congrArg (t.byTopic.entries.flatMap ·) (funext fun e => ?_)
  refine e.2.filter_flatMap_entries (routesOfPorts e.1) _ host (fun _ _ e' he => ?_) rfl
  rw [(mem_routesOfPorts_iff.1 he).2.1]

/-! ## What is read off the list -/

theorem lookup_eq_routes (topic : String) :
    t.lookup topic = (t.routes.filter fun e => e.1.topic = topic).map Prod.snd := by
  rw [routes_of_topic, routesOfHosts, List.map_flatMap, lookup_eq]
  refine congrArg (List.flatMap · _) (funext fun e => ?_)
  rw [routesOfPorts, List.map_map]
  rfl

theorem size_eq_routes : t.size = t.routes.length := by
  unfold size routes routesOfHosts routesOfPorts KeyMap.values
  simp only [List.length_flatMap, List.length_map, List.map_map, Function.comp_def]

/-- The sessions that some routes hold. -/
def sessionsOf (routes : List (Place × RouteEntry σ)) : List σ :=
  routes.filterMap fun e => e.2.session

theorem sessionsOfPorts_eq (topic host : String) (ports : PortMap σ) :
    sessionsOfPorts ports = sessionsOf (routesOfPorts topic host ports) := by
  unfold sessionsOfPorts sessionsOf routesOfPorts KeyMap.values
  rw [List.filterMap_map, List.filterMap_map]
  rfl

theorem sessionsOfHosts_eq (topic : String) (hosts : HostMap σ) :
    sessionsOfHosts hosts = sessionsOf (routesOfHosts topic hosts) := by
  unfold sessionsOfHosts routesOfHosts KeyMap.values
  rw [sessionsOf, List.filterMap_flatMap, List.flatMap_map]
  exact congrArg (List.flatMap · _) (funext fun e => sessionsOfPorts_eq topic e.1 e.2)

theorem sessions_eq : t.sessions = sessionsOf t.routes := by
  unfold sessions routes KeyMap.values
  rw [sessionsOf, List.filterMap_flatMap, List.flatMap_map]
  exact congrArg (List.flatMap · _) (funext fun e => sessionsOfHosts_eq e.1 e.2)

theorem displaced_of_forgetTopic (topic : String) :
    (t.forgetTopic topic).2 = sessionsOf (t.routes.filter fun e => e.1.topic = topic) := by
  rw [routes_of_topic]
  exact sessionsOfHosts_eq topic _

theorem displaced_of_removeHost (host : String) :
    (t.removeHost host).2 = sessionsOf (t.routes.filter fun e => e.1.host = host) := by
  rw [routes_of_host, sessionsOf, List.filterMap_flatMap]
  unfold removeHost KeyMap.values
  dsimp only
  rw [List.flatMap_map]
  exact congrArg (List.flatMap · _) (funext fun e => sessionsOfPorts_eq e.1 host _)

end RouteTable

end TopicMesh
