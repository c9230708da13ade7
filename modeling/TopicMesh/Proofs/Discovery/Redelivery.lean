import TopicMesh.Proofs.Discovery.Bookkeeping
import TopicMesh.Proofs.Discovery.Glimpses

/-!
# Announcements that come again

Announcements are retained, so a node is told them again whenever it comes back, while its
sessions are live.  An outlook **heeds** an announcement if it holds what the announcement
says (`Heeds`): of a node that is there, each listed topic is remembered at its port and
served there by its protocol; of one that has left, nothing is remembered and no part of
the table is kept for its host.

Taking in an announcement makes the outlook heed it (`heeds_take`), and what heeds it is
left as it is by taking it in again (`step_of_heeds`): nothing is displaced, because nothing
changes.  Sessions that come and go on any route, and payloads on other topics that name
other hosts, leave it heeded (`Heeds.step`).  So **a payload that comes again does
nothing**, whatever came before it, and whatever of that kind came since
(`redelivered_changes_nothing`).
-/

namespace TopicMesh

namespace RouteTable

variable {σ : Type} {t : RouteTable σ} {host : String}

/-- Operations that change nothing displace nothing. -/
theorem runAll_of_same {ops : List TableOp} (same : (TableOp.runAll t ops).1 = t) :
    TableOp.runAll t ops = (t, []) := by
  have kept := (t.sessions_runAll ops).length_eq
  rw [same, List.length_append] at kept
  exact Prod.ext same (List.length_eq_zero_iff.1 (by omega))

/-- Whether a table keeps nothing for a host, and no topic without hosts. -/
structure Without (t : RouteTable σ) (host : String) : Prop where
  hosts : t.byTopic.NoneEmpty
  absent : ∀ topic, (t.byTopic.innerOf topic).get? host = none

theorem without_removeHost (t : RouteTable σ) (host : String) :
    (t.removeHost host).1.Without host := by
  refine ⟨KeyMap.noneEmpty_everywhere t.byTopic _, fun topic => ?_⟩
  unfold removeHost
  dsimp only
  rw [KeyMap.innerOf_everywhere _ _ (KeyMap.erase_empty host), KeyMap.get?_erase, if_pos rfl]

theorem Without.removeHost_eq_self (without : t.Without host) : (t.removeHost host).1 = t := by
  suffices same : (t.byTopic.everywhere fun hosts => hosts.erase host) = t.byTopic from
    congrArg RouteTable.mk same
  refine KeyMap.ext_get? fun topic => ?_
  rw [KeyMap.get?_everywhere]
  cases there : t.byTopic.get? topic with
  | none => rfl
  | some hosts =>
    have absent : hosts.get? host = none := by
      rw [← KeyMap.innerOf_eq_of_get? there]
      exact without.absent topic
    show (hosts.erase host).nonEmpty? = some hosts
    rw [KeyMap.erase_of_get?_eq_none absent, KeyMap.nonEmpty?, without.hosts topic hosts there]
    rfl

theorem Without.at?_eq_none (without : t.Without host) {p : Place} (here : p.host = host) :
    t.at? p = none := by
  rw [at?, route?_eq, here, KeyMap.innerOf, without.absent p.topic]
  rfl

/-- Routes to other hosts may change. -/
theorem Without.change (without : t.Without host) {topic other : String} (ne : other ≠ host)
    (port : UInt16) (f : Option (RouteEntry σ) → Option (RouteEntry σ)) :
    (t.change topic other port f).Without host := by
  refine ⟨KeyMap.noneEmpty_within without.hosts topic _, fun topic' => ?_⟩
  rw [change_eq, KeyMap.innerOf_within]
  split
  · rw [changedIn, KeyMap.get?_within, if_neg ne]
    exact without.absent topic
  · exact without.absent topic'

theorem OnHost.without {act : RouteTable σ → RouteTable σ} {other : String}
    (on : OnHost other act) (ne : other ≠ host) (without : t.Without host) :
    (act t).Without host := by
  induction on generalizing t with
  | nothing => exact without
  | andThen _ _ first second => exact second (first without)
  | change topic port f => exact without.change ne port f
  | removeHost =>
    refine ⟨KeyMap.noneEmpty_everywhere t.byTopic _, fun topic => ?_⟩
    unfold RouteTable.removeHost
    dsimp only
    rw [KeyMap.innerOf_everywhere _ _ (KeyMap.erase_empty other), KeyMap.get?_erase, if_neg ne]
    exact without.absent topic

/-- Sessions come and go only where there is a route. -/
theorem Without.use (without : t.Without host) (p : Place) (closed : σ → Bool) (offered : σ) :
    (t.sessionOrInsert closed p.topic p.host p.port offered).1.Without host := by
  rcases t.sessionOrInsert_cases closed p offered with ⟨-, is⟩ | ⟨s, -, -, is⟩ | ⟨there, -, is⟩
  · rwa [is]
  · rwa [is]
  · rw [is]
    exact without.change (fun here => there (without.at?_eq_none here)) p.port _

theorem Without.detach [DecidableEq σ] (without : t.Without host) (p : Place) (session : σ) :
    (t.detach p.topic p.host p.port session).1.Without host := by
  rcases t.detach_cases p session with ⟨held, is⟩ | ⟨-, is⟩
  · rw [is]
    refine without.change (fun here => ?_) p.port _
    rw [holder?, without.at?_eq_none here] at held
    cases held
  · rwa [is]

end RouteTable

namespace Outlook

open Discovery

variable {σ : Type}

/-- **Whether an outlook holds what an announcement on a topic says.** -/
inductive Heeds (o : Outlook σ) (node : String) (a : Announcement) : Prop
  /-- The announced topics are remembered at their ports, and served there.  Nothing is
  kept for the node if nothing is remembered of it. -/
  | there (connected : a.status = .connected)
      (known : ∀ topic cap, a.topics.get? topic = some cap →
        o.discovery.known? node topic = some cap.port)
      (served : ∀ topic cap, a.topics.get? topic = some cap →
        o.table.protocol? ⟨topic, a.host, cap.port⟩ = some cap.protocol)
      (stored : (o.discovery.announced.innerOf node).nonEmpty? = o.discovery.announced.get? node)
  | gone (disconnected : a.status = .disconnected)
      (forgotten : o.discovery.announced.get? node = none)
      (unserved : o.table.Without a.host)

/-- After an announcement it is heeded. -/
theorem heeds_absorbInto (o : Outlook σ) (node : String) (a : Announcement) :
    Heeds ⟨(o.discovery.absorbInto o.table node a).1, (o.discovery.absorbInto o.table node a).2⟩
      node a := by
  cases hs : a.status with
  | connected =>
    refine .there hs (fun topic cap listed => ?_) (fun topic cap listed => ?_) ?_
    · show (o.discovery.absorbInto o.table node a).1.known? node topic = _
      rw [known?_absorbInto, hs, listed]
      rfl
    · have follows := follows_absorbInto o.discovery o.table node a
      unfold Follows at follows
      rw [hs] at follows
      obtain ⟨r, found, protocol⟩ := follows topic cap listed
      rw [← protocol]
      exact RouteTable.protocol?_of_at? found
    · rw [absorbInto_of_connected _ _ _ hs]
      dsimp only
      rw [KeyMap.innerOf_within, KeyMap.get?_within, if_pos rfl, if_pos rfl]
  | disconnected =>
    refine .gone hs ?_ ?_
    · rw [absorbInto_of_disconnected _ _ _ hs]
      dsimp only
      rw [KeyMap.get?_erase, if_pos rfl]
    · rw [absorbInto_of_disconnected _ _ _ hs]
      exact RouteTable.without_removeHost o.table a.host

/-- An announcement on another topic, of another host, leaves one heeded. -/
theorem Heeds.absorbInto {o : Outlook σ} {node other : String} {a b : Announcement}
    (heeds : o.Heeds node a) (topics : other ≠ node) (hosts : b.host ≠ a.host) :
    Heeds ⟨(o.discovery.absorbInto o.table other b).1, (o.discovery.absorbInto o.table other b).2⟩
      node a := by
  have entry : (o.discovery.absorbInto o.table other b).1.announced.get? node =
      o.discovery.announced.get? node := by
    show (o.discovery.absorb other b).1.announced.get? node = _
    rw [absorb_fst]
    exact (KeyMap.get?_put ..).trans (if_neg topics)
  cases heeds with
  | there connected known served stored =>
    refine .there connected (fun topic cap listed => ?_) (fun topic cap listed => ?_) ?_
    · rw [known?_absorbInto_of_ne _ _ b topics]
      exact known topic cap listed
    · rw [protocol?_absorbInto_of_ne _ _ _ hosts]
      exact served topic cap listed
    · rw [KeyMap.innerOf, entry]
      exact stored
  | gone disconnected forgotten unserved =>
    exact .gone disconnected (entry.trans forgotten)
      ((o.discovery.onHost_absorb other b).without hosts unserved)

/-! ## Once more -/

/-- Of topics that are known at their ports none has moved, and nothing new is known. -/
theorem absorb_of_known {d : Discovery} {node : String} {a : Announcement}
    (connected : a.status = .connected)
    (known : ∀ topic cap, a.topics.get? topic = some cap → d.known? node topic = some cap.port)
    (stored : (d.announced.innerOf node).nonEmpty? = d.announced.get? node) :
    d.absorb node a = (d, [.apply a.host a.updates]) := by
  have unmoved : movedPorts (d.announced.innerOf node) a.updates = [] := by
    refine List.eq_nil_iff_forall_not_mem.2 fun moved there => ?_
    obtain ⟨old, cap, listed, elsewhere⟩ := mem_movedPorts_iff.1 there
    rw [← known?, known _ cap listed] at old
    exact elsewhere (Option.some.inj old).symm
  have remembered : remember (d.announced.innerOf node) a.updates = d.announced.innerOf node := by
    refine KeyMap.ext_get? fun topic => ?_
    rw [get?_remember]
    cases listed : a.topics.get? topic with
    | none => rfl
    | some cap => exact (known topic cap listed).symm
  have same : (d.announced.within node fun known => remember known a.updates) = d.announced := by
    unfold KeyMap.within
    dsimp only
    rw [remembered, stored, KeyMap.put_get?]
  unfold absorb
  rw [connected]
  dsimp only
  rw [unmoved, same]
  rfl

/-- **An announcement that is heeded changes nothing and displaces nothing.** -/
theorem absorb_of_heeds {o : Outlook σ} {node : String} {a : Announcement}
    (heeds : o.Heeds node a) :
    (o.discovery.absorb node a).1 = o.discovery ∧
      TableOp.runAll o.table (o.discovery.absorb node a).2 = (o.table, []) := by
  cases heeds with
  | there connected known served stored =>
    rw [absorb_of_known connected known stored]
    refine ⟨rfl, RouteTable.runAll_of_same ?_⟩
    show (o.table.apply a.host a.updates).1 = o.table
    refine (RouteTable.apply_eq_self_iff (updates_distinct a)).2 fun u listed => ?_
    exact served u.topic _ (mem_updates_iff.1 listed)
  | gone disconnected forgotten unserved =>
    unfold absorb
    rw [disconnected]
    refine ⟨?_, RouteTable.runAll_of_same unserved.removeHost_eq_self⟩
    dsimp only
    rw [KeyMap.erase_of_get?_eq_none forgotten]

variable [DecidableEq σ] {c : DiscoveryConfig}

theorem step_of_heeds {o : Outlook σ} {e : Event σ} {node : String} {a : Announcement}
    (brings : e.heard? c = some (node, a)) (heeds : o.Heeds node a) : o.step c e = (o, []) := by
  obtain ⟨same, nothing⟩ := absorb_of_heeds heeds
  rw [o.step_of_heard brings, absorbInto, nothing, same]

/-! ## In the meantime -/

/-- Whether an event has nothing to do with a payload: a session comes or goes, or another
payload comes that is apart from it. -/
def Event.Aside (x : Parcel) : Event σ → Prop
  | .payload topic bytes => Apart x (topic, bytes)
  | .use .. => True
  | .detach .. => True

/-- **What happens aside leaves an announcement heeded.** -/
theorem Heeds.step {o : Outlook σ} {x : Parcel} {a : Announcement} (heard : x.heard? c = some a)
    (heeds : o.Heeds x.1 a) {e : Event σ} (aside : e.Aside x) : (o.step c e).1.Heeds x.1 a := by
  cases brings : e.heard? c with
  | some b =>
    cases e with
    | payload topic bytes =>
      rw [heard?_payload (x := (topic, bytes)), Option.map_eq_some_iff] at brings
      obtain ⟨b, heard_b, rfl⟩ := brings
      have apart : Apart x (topic, bytes) := aside
      rw [o.step_of_heard (heard?_payload.trans (congrArg _ heard_b))]
      exact heeds.absorbInto (Ne.symm apart.topics) (Ne.symm (apart.hosts_ne heard heard_b))
    | use p closed offered => cases brings
    | detach p session => cases brings
  | none =>
    -- the routes keep their protocols, and there is none where the host has left
    have same := o.discovery_step_of_unheard brings
    cases heeds with
    | there connected known served stored =>
      refine .there connected (same ▸ known) (fun topic cap listed => ?_) (same ▸ stored)
      rw [o.protocol?_step_of_unheard brings]
      exact served topic cap listed
    | gone disconnected forgotten unserved =>
      refine .gone disconnected (same ▸ forgotten) ?_
      cases e with
      | payload topic bytes =>
        rw [o.step_payload_of_unheard brings]
        exact unserved
      | use p closed offered => exact unserved.use p closed offered
      | detach p session => exact unserved.detach p session

variable (c) in
/-- An outlook after some more events. -/
def later (o : Outlook σ) (events : List (Event σ)) : Outlook σ :=
  events.foldl (fun o e => (o.step c e).1) o

theorem Heeds.later {o : Outlook σ} {x : Parcel} {a : Announcement} (heard : x.heard? c = some a)
    (heeds : o.Heeds x.1 a) {events : List (Event σ)} (aside : ∀ e ∈ events, e.Aside x) :
    (o.later c events).Heeds x.1 a := by
  induction events generalizing o with
  | nil => exact heeds
  | cons e events ih =>
    exact ih (heeds.step heard (aside e List.mem_cons_self)) fun e' there =>
      aside e' (List.mem_cons_of_mem _ there)

/-! ## Again -/

/-- **A payload that comes again does nothing.**  Whatever the node held when it came first,
and whatever sessions have come and gone since and payloads been taken in that are apart
from it: the routes with their sessions and the remembered ports stay, and no session is
closed. -/
theorem redelivered_changes_nothing (c : DiscoveryConfig) (o : Outlook σ) (x : Parcel)
    {between : List (Event σ)} (aside : ∀ e ∈ between, e.Aside x) :
    ((o.take c x).later c between).step c (.payload x.1 x.2) =
      ((o.take c x).later c between, []) := by
  cases heard : x.heard? c with
  | none =>
    refine step_payload_of_unheard _ ?_
    rw [heard?_payload, heard]
    rfl
  | some a =>
    have brings : (Event.payload x.1 x.2 : Event σ).heard? c = some (x.1, a) := by
      rw [heard?_payload, heard]
      rfl
    have heeded : (o.take c x).Heeds x.1 a := by
      rw [take_of_heard heard]
      exact heeds_absorbInto o x.1 a
    exact step_of_heeds brings (heeded.later heard aside)

/-- A node moves, and a session comes up at its new port; another node leaves; and the
first announcement comes again. -/
theorem redelivered_after_move :
    let c : DiscoveryConfig := ⟨"me", "here", "d", true⟩
    let moves : Announcement := ⟨.connected, "g", .ofList [("t", ⟨.peerRtc, 2⟩)]⟩
    let x : Parcel := ("d/m", moves.encode.toOption.getD [])
    let between : List (Event Nat) :=
      [.use ⟨"t", "g", 2⟩ (fun _ => false) 10, .announced "d/n" (.departure "h")]
    ((crowd.take c x).later c between).table.sessions = [10] ∧
      ((crowd.take c x).later c between).step c (.payload x.1 x.2) =
        ((crowd.take c x).later c between, []) := by
  intro c moves x between
  have aside : ∀ e ∈ between, e.Aside x := by
    intro e there
    rcases List.mem_pair.1 there with rfl | rfl
    · exact trivial
    · refine ⟨by decide, fun a b ha hb => ?_⟩
      rw [show Announcement.decode x.2 = .ok moves by decide +kernel] at ha
      rw [show Announcement.decode _ = .ok (.departure "h") by decide +kernel] at hb
      cases ha
      cases hb
      decide
  exact ⟨by decide +kernel, redelivered_changes_nothing c crowd x aside⟩

end Outlook

end TopicMesh
