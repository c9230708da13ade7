import Mathlib.Data.List.Induction
import TopicMesh.Proofs.Discovery.View
import TopicMesh.Proofs.RouteTable.Sessions

/-!
# What a history of announcements leaves behind

An `Outlook` is what a node holds of all others: the ports that it remembers and its
routes.  It starts empty, and what happens to it is an `Event`: a payload on an
announcement topic, which may be anything, or the coming and going of a session on a
route.

The events bring announcements, and those of one node (`announcementsOn`) say what the
outlook has come to hold of it.  A departure ends what was said before; of what was said
since, the newest announcement that lists a topic counts (`lastListed`).  That is the
port that is remembered for the topic (`known?_run`), whoever else announces what.  If no
other node names the host (`Paired`), it is also the one route to the host
(`capabilities_run`).
-/

namespace TopicMesh

/-! ## The announcements of one node -/

/-- The announcements since a node last left, newest first. -/
def sinceDeparture (history : List Announcement) : List Announcement :=
  history.reverse.takeWhile fun a => a.status = .connected

/-- **What a node said last of a topic**, since it last left. -/
def lastListed (history : List Announcement) (topic : String) : Option Capability :=
  (sinceDeparture history).findSome? fun a => a.topics.get? topic

/-- The announcements on one of several topics. -/
def announcementsOn (node : String) (heard : List (String × Announcement)) : List Announcement :=
  (heard.filter fun x => x.1 = node).map Prod.snd

theorem lastListed_concat (history : List Announcement) (a : Announcement) (topic : String) :
    lastListed (history ++ [a]) topic =
      match a.status with
      | .connected => (a.topics.get? topic).or (lastListed history topic)
      | .disconnected => none := by
  unfold lastListed sinceDeparture
  rw [List.reverse_append, List.reverse_singleton, List.singleton_append, List.takeWhile_cons]
  cases a.status with
  | connected =>
    rw [if_pos (decide_eq_true rfl), List.findSome?_cons]
    cases a.topics.get? topic <;> rfl
  | disconnected => rfl

theorem announcementsOn_concat_self (heard : List (String × Announcement)) (node : String)
    (a : Announcement) :
    announcementsOn node (heard ++ [(node, a)]) = announcementsOn node heard ++ [a] := by
  simp [announcementsOn]

theorem announcementsOn_concat_of_ne (heard : List (String × Announcement)) {node other : String}
    (a : Announcement) (h : other ≠ node) :
    announcementsOn node (heard ++ [(other, a)]) = announcementsOn node heard := by
  simp [announcementsOn, h]

/-- Whether one node alone names a host, and it names no other. -/
def Paired (node host : String) (heard : List (String × Announcement)) : Prop :=
  ∀ x ∈ heard, x.1 = node ↔ x.2.host = host

theorem Paired.of_append {node host : String} {heard more : List (String × Announcement)}
    (paired : Paired node host (heard ++ more)) : Paired node host heard :=
  fun x hx => paired x (List.mem_append_left _ hx)

instance (node host : String) (heard : List (String × Announcement)) :
    Decidable (Paired node host heard) :=
  inferInstanceAs (Decidable (∀ x ∈ heard, _))

namespace RouteTable

variable {σ : Type} (t : RouteTable σ)

/-- The protocol of the route at a place. -/
def protocol? (p : Place) : Option Protocol :=
  (t.at? p).map RouteEntry.protocol

/-- How a host serves a topic, as listed for the topic. -/
def capabilities (topic host : String) : List Capability :=
  ((t.lookup topic).filter fun r => r.host = host).map fun r => ⟨r.protocol, r.port⟩

variable {t}

theorem protocol?_of_at? {p : Place} {r : RouteEntry σ} (found : t.at? p = some r) :
    t.protocol? p = some r.protocol := by
  rw [protocol?, found]
  rfl

theorem protocol?_eq_flat (t : RouteTable σ) (p : Place) :
    t.protocol? p = (t.flat p).map Route.protocol := by
  rw [flat, Option.map_map]
  rfl

/-- A route that gets another session keeps its protocol. -/
theorem Flat.protocol_assign (f : Flat σ) (q : Place) (session : Option σ) (p : Place) :
    (f.assign q session p).map Route.protocol = (f p).map Route.protocol := by
  rw [Flat.assign, Function.update_apply]
  split
  · next same =>
    rw [same, Option.map_map]
    rfl
  · rfl

/-- A host that serves a topic at one port, or not at all, is listed so. -/
theorem Labelled.capabilities_eq (labelled : t.Labelled) {topic host : String}
    {served : Option Capability}
    (routes : ∀ port, t.protocol? ⟨topic, host, port⟩ =
      (served.filter fun c => c.port = port).map Capability.protocol) :
    t.capabilities topic host = served.toList := by
  have route : ∀ port r, t.route? topic host port = some r → served = some ⟨r.protocol, port⟩ := by
    intro port r found
    have here := routes port
    rw [protocol?_of_at? (show t.at? ⟨topic, host, port⟩ = some r from found)] at here
    obtain ⟨c, hc, protocol⟩ := Option.map_eq_some_iff.1 here.symm
    obtain ⟨rfl, same⟩ := Option.filter_eq_some_iff.1 hc
    rw [← protocol, ← of_decide_eq_true same]
  unfold capabilities
  cases served with
  | none =>
    rw [List.filter_eq_nil_iff.2]
    · rfl
    · intro r listed here
      have found := labelled.route?_of_mem_lookup listed
      rw [of_decide_eq_true here] at found
      cases route r.port r found
  | some c =>
    obtain ⟨r, found⟩ : ∃ r, t.route? topic host c.port = some r := by
      have here := routes c.port
      rw [Option.filter_some, if_pos (decide_eq_true rfl)] at here
      exact (Option.map_eq_some_iff.1 here).imp fun _ found => found.1
    rw [labelled.lookup_of_only_port found fun port there => ?_]
    · rw [List.map_singleton, (labelled topic host c.port r found).2,
        ← Option.some.inj (route c.port r found), Option.toList_some]
    · obtain ⟨r', found'⟩ := Option.ne_none_iff_exists'.1 there
      exact (congrArg Capability.port (Option.some.inj (route port r' found'))).symm

end RouteTable

namespace Discovery

variable {σ : Type}

/-- An announcement changes no route to another host. -/
theorem protocol?_absorbInto_of_ne (d : Discovery) (t : RouteTable σ) (node : String)
    {a : Announcement} {p : Place} (other : a.host ≠ p.host) :
    (d.absorbInto t node a).2.protocol? p = t.protocol? p :=
  congrArg (Option.map _) (route?_absorbInto_of_ne d t node other p.topic p.port)

/-- The routes of a host that one node alone names, after one more announcement. -/
theorem protocol?_absorbInto {d : Discovery} {t : RouteTable σ} {node : String}
    {a : Announcement} {topic : String} {listed : Option Capability}
    (known : d.known? node topic = listed.map Capability.port)
    (routes : ∀ port, t.protocol? ⟨topic, a.host, port⟩ =
      (listed.filter fun c => c.port = port).map Capability.protocol) (port : UInt16) :
    (d.absorbInto t node a).2.protocol? ⟨topic, a.host, port⟩ =
      (Option.filter (fun c => c.port = port)
        (match a.status with
        | .connected => (a.topics.get? topic).or listed
        | .disconnected => none)).map Capability.protocol := by
  unfold RouteTable.protocol? RouteTable.at? at routes ⊢
  cases hs : a.status with
  | disconnected =>
    rw [absorbInto_of_disconnected d t node hs, RouteTable.route?_removeHost, if_pos rfl]
    rfl
  | connected =>
    rw [route?_absorbInto_of_connected d t node hs]
    cases a.topics.get? topic with
    | none => exact routes port
    | some cap =>
      dsimp only
      rw [Option.some_or, Option.filter_some, known]
      by_cases here : cap.port = port
      · subst here
        simp [RouteTable.protocol_updated]
      · rw [if_neg (Ne.symm here), if_neg fun e => here (of_decide_eq_true e)]
        split
        · rfl
        · next unknown =>
          -- a route at another port was at the port that was known
          rw [routes]
          cases listed with
          | none => rfl
          | some old => simpa [Option.filter_some] using unknown

end Discovery

/-- **What a node holds of all others**: the ports that it remembers, and its routes. -/
structure Outlook (σ : Type) where
  discovery : Discovery
  table : RouteTable σ

namespace Outlook

open Discovery

variable {σ : Type}

/-- Nothing heard, and no routes. -/
def empty : Outlook σ := ⟨.empty, .empty⟩

/-- What happens to an outlook. -/
inductive Event (σ : Type)
  /-- A payload comes on an announcement topic. -/
  | payload (topic : String) (bytes : Bytes)
  /-- The session of a route is wanted; one is offered in case there is none that is
  still open. -/
  | use (p : Place) (closed : σ → Bool) (offered : σ)
  /-- A session leaves its route by itself. -/
  | detach (p : Place) (session : σ)

/-- The payload by which a node announces itself; a cleared one if there is nothing that
can be written. -/
def Event.announced (node : String) (a : Announcement) : Event σ :=
  .payload node (a.encode.toOption.getD [])

/-- The announcement that an event brings, with the topic it comes on. -/
def Event.heard? (c : DiscoveryConfig) : Event σ → Option (String × Announcement)
  | payload topic bytes =>
    match Discovery.heard? c topic bytes with
    | .ok (some a) => some (topic, a)
    | _ => none
  | _ => none

/-- The announcements that some events bring, oldest first. -/
def heard (c : DiscoveryConfig) (events : List (Event σ)) : List (String × Announcement) :=
  events.filterMap (Event.heard? c)

variable [DecidableEq σ]

/-- The outlook after an event, and the sessions that discovery closes.  A payload that
cannot be used is reported and changes nothing. -/
def step (c : DiscoveryConfig) (o : Outlook σ) : Event σ → Outlook σ × List σ
  | .payload topic bytes =>
    match o.discovery.handle c o.table topic bytes with
    | .ok (d, t, displaced) => (⟨d, t⟩, displaced)
    | .error _ => (o, [])
  | .use p closed offered => ({ o with table := o.table.after (.use p closed offered) }, [])
  | .detach p session => ({ o with table := o.table.after (.detach p session) }, [])

/-- The outlook after some events. -/
def run (c : DiscoveryConfig) (events : List (Event σ)) : Outlook σ :=
  events.foldl (fun o e => (o.step c e).1) empty

variable {c : DiscoveryConfig}

theorem run_concat (events : List (Event σ)) (e : Event σ) :
    run c (events ++ [e]) = ((run c events).step c e).1 :=
  List.foldl_concat ..

omit [DecidableEq σ] in
theorem heard_concat_of_some (events : List (Event σ)) {e : Event σ} {x : String × Announcement}
    (h : e.heard? c = some x) : heard c (events ++ [e]) = heard c events ++ [x] := by
  simp [heard, h]

omit [DecidableEq σ] in
theorem heard_concat_of_none (events : List (Event σ)) {e : Event σ} (h : e.heard? c = none) :
    heard c (events ++ [e]) = heard c events := by
  simp [heard, h]

/-! ## One event -/

/-- An announcement that is heard is taken in. -/
theorem step_of_heard (o : Outlook σ) {e : Event σ} {node : String} {a : Announcement}
    (h : e.heard? c = some (node, a)) :
    o.step c e =
      (⟨(o.discovery.absorbInto o.table node a).1, (o.discovery.absorbInto o.table node a).2⟩,
        (TableOp.runAll o.table (o.discovery.absorb node a).2).2) := by
  cases e with
  | payload topic bytes =>
    simp only [Event.heard?] at h
    simp only [step, handle, operations]
    cases heard : Discovery.heard? c topic bytes with
    | error fault => simp [heard] at h
    | ok some? =>
      cases some? with
      | none => simp [heard] at h
      | some a' =>
        rw [heard] at h
        cases h
        rfl
  | use p closed offered => cases h
  | detach p session => cases h

/-- A payload with nothing to hear changes nothing. -/
theorem step_payload_of_unheard (o : Outlook σ) {topic : String} {bytes : Bytes}
    (h : (Event.payload topic bytes : Event σ).heard? c = none) :
    o.step c (.payload topic bytes) = (o, []) := by
  simp only [Event.heard?] at h
  simp only [step, handle, operations]
  cases heard : Discovery.heard? c topic bytes with
  | error fault => rfl
  | ok some? =>
    cases some? with
    | none => rfl
    | some a => simp [heard] at h

/-- The coming and going of sessions changes no protocol. -/
theorem protocol?_step_of_unheard (o : Outlook σ) {e : Event σ} (h : e.heard? c = none)
    (p : Place) : (o.step c e).1.table.protocol? p = o.table.protocol? p := by
  cases e with
  | payload topic bytes => rw [o.step_payload_of_unheard h]
  | use q closed offered =>
    rw [RouteTable.protocol?_eq_flat, RouteTable.protocol?_eq_flat]
    show ((o.table.after (.use q closed offered)).flat p).map _ = _
    rw [RouteTable.flat_after, RouteTable.Flat.after]
    split
    · exact RouteTable.Flat.protocol_assign ..
    · rfl
  | detach q session =>
    rw [RouteTable.protocol?_eq_flat, RouteTable.protocol?_eq_flat]
    show ((o.table.after (.detach q session)).flat p).map _ = _
    rw [RouteTable.flat_after, RouteTable.Flat.after]
    split
    · exact RouteTable.Flat.protocol_assign ..
    · rfl

theorem discovery_step_of_unheard (o : Outlook σ) {e : Event σ} (h : e.heard? c = none) :
    (o.step c e).1.discovery = o.discovery := by
  cases e with
  | payload topic bytes => rw [o.step_payload_of_unheard h]
  | use p closed offered => rfl
  | detach p session => rfl

theorem labelled_step {o : Outlook σ} (labelled : o.table.Labelled) (e : Event σ) :
    (o.step c e).1.table.Labelled := by
  cases h : e.heard? c with
  | some x =>
    rw [o.step_of_heard h]
    exact labelled_absorbInto o.discovery labelled x.1 x.2
  | none =>
    cases e with
    | payload topic bytes =>
      rw [o.step_payload_of_unheard h]
      exact labelled
    | use p closed offered => exact labelled.after _
    | detach p session => exact labelled.after _

/-! ## A run -/

theorem labelled_run (events : List (Event σ)) : (run c events).table.Labelled := by
  induction events using List.reverseRecOn with
  | nil => exact RouteTable.labelled_empty
  | append_singleton events e ih =>
    rw [run_concat]
    exact labelled_step ih e

/-- **The port that is remembered for a topic of a node is the one that the node listed
last**, since it last left. -/
theorem known?_run (events : List (Event σ)) (node topic : String) :
    (run c events).discovery.known? node topic =
      (lastListed (announcementsOn node (heard c events)) topic).map Capability.port := by
  induction events using List.reverseRecOn with
  | nil => rfl
  | append_singleton events e ih =>
    rw [run_concat]
    cases h : e.heard? c with
    | none => rw [discovery_step_of_unheard _ h, heard_concat_of_none events h, ih]
    | some x =>
      obtain ⟨other, a⟩ := x
      rw [step_of_heard _ h, heard_concat_of_some events h]
      by_cases same : other = node
      · subst same
        rw [known?_absorbInto, announcementsOn_concat_self, lastListed_concat, ih]
        cases a.status with
        | connected => cases a.topics.get? topic <;> rfl
        | disconnected => rfl
      · rw [known?_absorbInto_of_ne _ _ a same, announcementsOn_concat_of_ne _ a same, ih]

theorem protocol?_run {events : List (Event σ)} {node host : String}
    (paired : Paired node host (heard c events)) (topic : String) (port : UInt16) :
    (run c events).table.protocol? ⟨topic, host, port⟩ =
      ((lastListed (announcementsOn node (heard c events)) topic).filter
        fun cap => cap.port = port).map Capability.protocol := by
  induction events using List.reverseRecOn generalizing port with
  | nil => rfl
  | append_singleton events e ih =>
    rw [run_concat]
    cases h : e.heard? c with
    | none =>
      rw [heard_concat_of_none events h] at paired ⊢
      rw [protocol?_step_of_unheard _ h, ih paired]
    | some x =>
      obtain ⟨other, a⟩ := x
      rw [heard_concat_of_some events h] at paired ⊢
      have before := ih paired.of_append
      have names := paired (other, a) (List.mem_append_right _ (List.mem_singleton_self _))
      rw [step_of_heard _ h]
      -- another node names another host, and so does not touch these routes
      by_cases same : other = node
      · obtain rfl : a.host = host := names.1 same
        subst same
        rw [announcementsOn_concat_self, lastListed_concat]
        exact protocol?_absorbInto (known?_run events other topic) before port
      · rw [announcementsOn_concat_of_ne _ a same, ← before port]
        exact protocol?_absorbInto_of_ne _ _ other fun host_same => same (names.2 host_same)

/-- **The routes to a host are what its node said last**, topic by topic, if no other
node names the host. -/
theorem capabilities_run {events : List (Event σ)} {node host : String}
    (paired : Paired node host (heard c events)) (topic : String) :
    (run c events).table.capabilities topic host =
      (lastListed (announcementsOn node (heard c events)) topic).toList :=
  (labelled_run events).capabilities_eq (protocol?_run paired topic)

end Outlook

end TopicMesh
