import TopicMesh.RouteTable
import TopicMesh.Proofs.KeyMap.Reading

/-!
# What announcements do to a route table

A table is read by `route?`.  Each table operation of an announcement is described by
what it does to this reading.  It leaves every route with the host and the port that it
is kept under (`Labelled`), which ties the listing of a topic to the reading
(`Labelled.route?_of_mem_lookup`, `Labelled.lookup_of_only_port`).
-/

namespace TopicMesh.RouteTable

variable {σ : Type} (t : RouteTable σ)

theorem route?_eq (topic host : String) (port : UInt16) :
    t.route? topic host port = ((t.byTopic.innerOf topic).innerOf host).get? port := by
  have inner : (t.byTopic.at₂? topic host).getD .empty = (t.byTopic.innerOf topic).innerOf host := by
    rw [KeyMap.at₂?_eq]
    rfl
  rw [← inner, route?]
  cases t.byTopic.at₂? topic host <;> rfl

/-! ## Updates -/

theorem protocol_updated (host : String) (port : UInt16) (protocol : Protocol)
    (r : Option (RouteEntry σ)) : (updated host port protocol r).protocol = protocol := by
  cases r with
  | none => rfl
  | some r =>
    by_cases h : r.protocol = protocol
    · simp [updated, h]
    · simp [updated, h]

theorem route?_upsert (topic host : String) (port : UInt16) (protocol : Protocol)
    (topic' host' : String) (port' : UInt16) :
    (t.upsert topic host port protocol).1.route? topic' host' port' =
      if topic = topic' ∧ host = host' ∧ port = port' then
        some (updated host port protocol (t.route? topic host port))
      else t.route? topic' host' port' :=
  route?_change t topic topic' host host' port port' fun r => some (updated host port protocol r)

theorem apply_cons (host : String) (u : RouteUpdate) (rest : List RouteUpdate) :
    (t.apply host (u :: rest)).1 =
      ((t.upsert u.topic host u.port u.protocol).1.apply host rest).1 := rfl

/-- Updates leave all routes alone that they do not name. -/
theorem route?_apply_of_forall_ne {host : String} {updates : List RouteUpdate}
    {topic' host' : String} {port' : UInt16}
    (h : ∀ u ∈ updates, ¬(u.topic = topic' ∧ host = host' ∧ u.port = port')) :
    (t.apply host updates).1.route? topic' host' port' = t.route? topic' host' port' := by
  induction updates generalizing t with
  | nil => rfl
  | cons u rest ih =>
    rw [apply_cons, ih _ fun v hv => h v (List.mem_cons_of_mem _ hv), route?_upsert,
      if_neg (h u List.mem_cons_self)]

/-- Updates make the routes that they name, or give them another protocol. -/
theorem route?_apply_of_mem (host : String) {updates : List RouteUpdate}
    (distinct : updates.Pairwise fun u v => u.topic ≠ v.topic) {u : RouteUpdate}
    (h : u ∈ updates) :
    (t.apply host updates).1.route? u.topic host u.port =
      some (updated host u.port u.protocol (t.route? u.topic host u.port)) := by
  induction updates generalizing t with
  | nil => cases h
  | cons v rest ih =>
    obtain ⟨others, distinct⟩ := List.pairwise_cons.1 distinct
    rw [apply_cons]
    rcases List.mem_cons.1 h with rfl | h
    · rw [route?_apply_of_forall_ne _ fun w hw same => others w hw same.1.symm, route?_upsert,
        if_pos ⟨rfl, rfl, rfl⟩]
    · rw [ih _ distinct h, route?_upsert, if_neg fun same => others u h same.1]

/-! ## Removals -/

theorem retire_cons (host : String) (name : String × UInt16) (rest : List (String × UInt16)) :
    (t.retire host (name :: rest)).1 =
      ((t.change name.1 host name.2 fun _ => none).retire host rest).1 := rfl

theorem route?_retire (host : String) (names : List (String × UInt16)) (topic' host' : String)
    (port' : UInt16) :
    (t.retire host names).1.route? topic' host' port' =
      if host = host' ∧ (topic', port') ∈ names then none else t.route? topic' host' port' := by
  induction names generalizing t with
  | nil => simp [retire]
  | cons name rest ih =>
    rw [retire_cons, ih, route?_change]
    by_cases hh : host = host'
    · by_cases hr : (topic', port') ∈ rest
      · rw [if_pos ⟨hh, hr⟩, if_pos ⟨hh, List.mem_cons_of_mem _ hr⟩]
      · rw [if_neg fun h => hr h.2]
        by_cases hn : (topic', port') = name
        · subst hn
          rw [if_pos ⟨rfl, hh, rfl⟩, if_pos ⟨hh, List.mem_cons_self⟩]
        · rw [if_neg fun h => hn (Prod.ext h.1.symm h.2.2.symm), if_neg fun h => ?_]
          rcases List.mem_cons.1 h.2 with h | h
          · exact hn h
          · exact hr h
    · rw [if_neg fun h => hh h.1, if_neg fun h => hh h.2.1, if_neg fun h => hh h.1]

theorem route?_removeHost (host topic' host' : String) (port' : UInt16) :
    (t.removeHost host).1.route? topic' host' port' =
      if host = host' then none else t.route? topic' host' port' := by
  have inner : (t.removeHost host).1.byTopic.innerOf topic' =
      (t.byTopic.innerOf topic').erase host :=
    KeyMap.innerOf_everywhere _ _ (KeyMap.erase_empty host) _
  rw [route?_eq, route?_eq, inner, KeyMap.innerOf, KeyMap.get?_erase]
  split <;> rfl

/-! ## The labels of the routes -/

/-- Whether every route names the host and the port that it is kept under. -/
def Labelled : Prop :=
  ∀ topic host port r, t.route? topic host port = some r → r.host = host ∧ r.port = port

variable {t}

theorem labelled_empty : (empty : RouteTable σ).Labelled := nofun

theorem Labelled.change (labelled : t.Labelled) {topic host : String} {port : UInt16}
    {f : Option (RouteEntry σ) → Option (RouteEntry σ)}
    (keeps : ∀ r, f (t.route? topic host port) = some r → r.host = host ∧ r.port = port) :
    (t.change topic host port f).Labelled := by
  intro topic' host' port' r found
  rw [route?_change] at found
  split at found
  · next here =>
    obtain ⟨-, rfl, rfl⟩ := here
    exact keeps r found
  · exact labelled topic' host' port' r found

/-- A table that only drops routes of another one. -/
theorem Labelled.drop {t' : RouteTable σ} (labelled : t.Labelled)
    (drops : ∀ topic host port, t'.route? topic host port = none ∨
      t'.route? topic host port = t.route? topic host port) : t'.Labelled := by
  intro topic host port r found
  rcases drops topic host port with gone | same
  · rw [gone] at found
    cases found
  · exact labelled topic host port r (same.symm.trans found)

theorem Labelled.upsert (labelled : t.Labelled) (topic host : String) (port : UInt16)
    (protocol : Protocol) : (t.upsert topic host port protocol).1.Labelled := by
  have keeps : ∀ r, some (updated host port protocol (t.route? topic host port)) = some r →
      r.host = host ∧ r.port = port := by
    rintro r ⟨⟩
    -- a route is labelled when it is made, and an update leaves the labels alone
    cases h : t.route? topic host port with
    | none => exact ⟨rfl, rfl⟩
    | some old =>
      dsimp only [updated]
      split <;> exact labelled topic host port old h
  exact Labelled.change (f := fun r => some (updated host port protocol r)) labelled keeps

theorem Labelled.apply (labelled : t.Labelled) (host : String) (updates : List RouteUpdate) :
    (t.apply host updates).1.Labelled := by
  induction updates generalizing t with
  | nil => exact labelled
  | cons u rest ih => exact ih (labelled.upsert u.topic host u.port u.protocol)

theorem Labelled.retire (labelled : t.Labelled) (host : String) (names : List (String × UInt16)) :
    (t.retire host names).1.Labelled := by
  refine labelled.drop fun topic host' port => ?_
  rw [route?_retire]
  split
  · exact .inl rfl
  · exact .inr rfl

theorem Labelled.removeHost (labelled : t.Labelled) (host : String) :
    (t.removeHost host).1.Labelled := by
  refine labelled.drop fun topic host' port => ?_
  rw [route?_removeHost]
  split
  · exact .inl rfl
  · exact .inr rfl

/-! ## Listings -/

theorem lookup_eq (t : RouteTable σ) (topic : String) :
    t.lookup topic = (t.byTopic.innerOf topic).entries.flatMap fun e => e.2.values := by
  unfold lookup
  rw [KeyMap.values, List.flatMap_map]

/-- A topic is listed with the routes that it has. -/
theorem mem_lookup_iff {topic : String} {r : RouteEntry σ} :
    r ∈ t.lookup topic ↔ ∃ host port, t.route? topic host port = some r := by
  rw [lookup_eq, List.mem_flatMap]
  constructor
  · rintro ⟨⟨host, ports⟩, hosts, listed⟩
    obtain ⟨port, found⟩ := KeyMap.mem_values_iff.1 listed
    refine ⟨host, port, ?_⟩
    rwa [route?_eq, KeyMap.innerOf_eq_of_get? (KeyMap.mem_entries_iff.1 hosts)]
  · rintro ⟨host, port, found⟩
    rw [route?_eq] at found
    cases hosts : (t.byTopic.innerOf topic).get? host with
    | none =>
      rw [KeyMap.innerOf, hosts] at found
      cases found
    | some ports =>
      rw [KeyMap.innerOf_eq_of_get? hosts] at found
      exact ⟨(host, ports), KeyMap.mem_entries_iff.2 hosts, KeyMap.mem_values_iff.2 ⟨port, found⟩⟩

/-- A labelled route is found under its labels. -/
theorem Labelled.route?_of_mem_lookup (labelled : t.Labelled) {topic : String} {r : RouteEntry σ}
    (listed : r ∈ t.lookup topic) : t.route? topic r.host r.port = some r := by
  obtain ⟨host, port, found⟩ := mem_lookup_iff.1 listed
  obtain ⟨rfl, rfl⟩ := labelled topic host port r found
  exact found

/-- The routes to a host in the listing of a topic. -/
theorem Labelled.lookup_of_host (labelled : t.Labelled) (topic host : String) :
    (t.lookup topic).filter (fun r => r.host = host) =
      ((t.byTopic.innerOf topic).innerOf host).values := by
  rw [lookup_eq]
  refine KeyMap.filter_flatMap_entries _ (fun _ ports => ports.values) _ host ?_ rfl
  rintro ⟨host', ports⟩ hosts r listed
  obtain ⟨port, found⟩ := KeyMap.mem_values_iff.1 listed
  rw [(labelled topic host' port r ?_).1]
  rwa [route?_eq, KeyMap.innerOf_eq_of_get? (KeyMap.mem_entries_iff.1 hosts)]

/-- A host that serves a topic at one port only is listed with the one route. -/
theorem Labelled.lookup_of_only_port (labelled : t.Labelled) {topic host : String} {port : UInt16}
    {r : RouteEntry σ} (here : t.route? topic host port = some r)
    (only : ∀ other, t.route? topic host other ≠ none → other = port) :
    (t.lookup topic).filter (fun r => r.host = host) = [r] := by
  have ports : (t.byTopic.innerOf topic).innerOf host = KeyMap.empty.insert port r := by
    refine KeyMap.ext_get? fun other => ?_
    rw [KeyMap.get?_insert, ← route?_eq]
    by_cases h : port = other
    · rw [if_pos h, ← h, here]
    · rw [if_neg h, KeyMap.get?_empty]
      exact Classical.byContradiction fun hn => h (only other hn).symm
  rw [labelled.lookup_of_host, ports]
  rfl

end TopicMesh.RouteTable
