import TopicMesh.Proofs.Discovery.History

/-!
# The bookkeeping of discovery

If the announcement topics and the hosts correspond one to one (`OneHostEach`), the
routes and the remembered ports are at every moment what the announcements say
(`bookkept`): each host has the routes that its node listed last, and no others.

Whatever the correspondence, a payload that holds nothing to hear changes nothing, and
the sessions that an event closes are those of the routes that it takes away or gives
another protocol.  For that an announcement is seen as a revision of the table
(`revises_absorbInto`): a place keeps its route, or ends up without its session.  As no
session is lost (`sessions_runAll`), the sessions of the lost routes are handed out.
-/

namespace TopicMesh

namespace RouteTable

variable {σ : Type} {t t' : RouteTable σ}

/-- Whether a table has the route of another one at a place, or none with a session and
not the same protocol. -/
def RevisedAt (t t' : RouteTable σ) (p : Place) : Prop :=
  t'.at? p = t.at? p ∨ t'.holder? p = none ∧ t'.protocol? p ≠ t.protocol? p

/-- The routes of a table that are gone from another one, or have another protocol. -/
def lostTo (t t' : RouteTable σ) : List (Place × RouteEntry σ) :=
  t.routes.filter fun e => t'.protocol? e.1 ≠ some e.2.protocol

theorem revisedAt_of_gone {p : Place} (gone : t'.at? p = none) : RevisedAt t t' p := by
  cases there : t.at? p with
  | none => exact .inl (gone.trans there.symm)
  | some r => exact .inr ⟨by simp [holder?, gone], by simp [protocol?, gone, there]⟩

theorem revisedAt_of_updated {p : Place} {protocol : Protocol}
    (made : t'.at? p = some (updated p.host p.port protocol (t.at? p))) : RevisedAt t t' p := by
  unfold RevisedAt holder? protocol?
  rw [made]
  cases t.at? p with
  | none => exact .inr ⟨rfl, nofun⟩
  | some r =>
    by_cases same : r.protocol = protocol
    · exact .inl (by simp [updated, same])
    · exact .inr ⟨by simp [updated, same], by simpa [updated, same] using Ne.symm same⟩

theorem sessionsOf_manned (routes : List (Place × RouteEntry σ)) :
    sessionsOf (routes.filter fun e => e.2.session.isSome) = sessionsOf routes := by
  unfold sessionsOf
  rw [List.filterMap_filter]
  refine congrArg (List.filterMap · _) (funext fun e => ?_)
  cases e.2.session <;> rfl

/-- **A revised table holds what the other one holds, but for the sessions of the lost
routes.** -/
theorem sessions_of_revised (revised : ∀ p, RevisedAt t t' p) :
    (t'.sessions ++ sessionsOf (t.lostTo t')).Perm t.sessions := by
  let kept := t.routes.filter fun e => !decide (t'.protocol? e.1 ≠ some e.2.protocol)
  -- of the routes that hold a session just those are left that are not lost
  have left : (t'.routes.filter fun e => e.2.session.isSome).Perm
      (kept.filter fun e => e.2.session.isSome) := by
    refine (List.perm_ext_iff_of_nodup (t'.routes_nodup.filter _)
      ((t.routes_nodup.filter _).filter _)).2 ?_
    rintro ⟨p, r⟩
    rw [List.mem_filter, List.mem_filter, List.mem_filter, mem_routes_iff, mem_routes_iff]
    rcases revised p with same | ⟨vacant, other⟩
    · rw [same]
      constructor
      · rintro ⟨found, manned⟩
        exact ⟨⟨found, by simp [protocol?_of_at? (same.trans found)]⟩, manned⟩
      · rintro ⟨⟨found, -⟩, manned⟩
        exact ⟨found, manned⟩
    · constructor
      · rintro ⟨found, manned⟩
        rw [holder?, found] at vacant
        rw [show r.session = none from vacant] at manned
        cases manned
      · rintro ⟨⟨found, same⟩, -⟩
        rw [protocol?_of_at? found] at other
        simp [other] at same
  have sessions : t'.sessions.Perm (sessionsOf kept) := by
    rw [sessions_eq, ← sessionsOf_manned, ← sessionsOf_manned kept]
    exact left.filterMap _
  calc t'.sessions ++ sessionsOf (t.lostTo t')
    _ |>.Perm (sessionsOf (t.lostTo t') ++ sessionsOf kept) :=
        (sessions.append_right _).trans List.perm_append_comm
    _ |>.Perm t.sessions := by
        rw [sessions_eq, ← sessionsOf_append]
        exact (List.filter_append_perm _ _).filterMap _

/-- Table operations lose no session. -/
theorem sessions_runAll (t : RouteTable σ) (ops : List TableOp) :
    ((TableOp.runAll t ops).1.sessions ++ (TableOp.runAll t ops).2).Perm t.sessions := by
  have one : ∀ (t : RouteTable σ) (op : TableOp),
      ((op.run t).1.sessions ++ (op.run t).2).Perm t.sessions := by
    intro t op
    cases op with
    | removeHost host => exact t.sessions_edited (.removeHost host)
    | apply host updates => exact t.sessions_apply host updates
    | retire host names => exact t.sessions_retire host names
  induction ops generalizing t with
  | nil =>
    show (t.sessions ++ []).Perm t.sessions
    rw [List.append_nil]
  | cons op rest ih => exact handed_trans (one t op) (ih (op.run t).1)

end RouteTable

namespace Discovery

variable {σ : Type}

/-- An announcement leaves a route as it is, or takes its session out. -/
theorem revises_absorbInto (d : Discovery) (t : RouteTable σ) (node : String) (a : Announcement)
    (p : Place) : RouteTable.RevisedAt t (d.absorbInto t node a).2 p := by
  by_cases named : a.host = p.host
  · cases hs : a.status with
    | disconnected =>
      refine RouteTable.revisedAt_of_gone ?_
      rw [absorbInto_of_disconnected d t node hs, RouteTable.at?, RouteTable.route?_removeHost,
        if_pos named]
    | connected =>
      have becomes := route?_absorbInto_of_connected d t node hs p.topic p.port
      rw [named] at becomes
      cases listed : a.topics.get? p.topic with
      | none =>
        rw [listed] at becomes
        exact .inl becomes
      | some cap =>
        rw [listed] at becomes
        dsimp only at becomes
        split at becomes
        · exact RouteTable.revisedAt_of_updated becomes
        · split at becomes
          · exact RouteTable.revisedAt_of_gone becomes
          · exact .inl becomes
  · exact .inl (route?_absorbInto_of_ne d t node named p.topic p.port)

end Discovery

/-- Whether the nodes and the hosts of some announcements correspond one to one. -/
def OneHostEach (heard : List (String × Announcement)) : Prop :=
  ∀ x ∈ heard, ∀ y ∈ heard, x.1 = y.1 ↔ x.2.host = y.2.host

instance (heard : List (String × Announcement)) : Decidable (OneHostEach heard) :=
  inferInstanceAs (Decidable (∀ x ∈ heard, ∀ y ∈ heard, _))

theorem OneHostEach.paired {heard : List (String × Announcement)} (one : OneHostEach heard)
    {x : String × Announcement} (hx : x ∈ heard) : Paired x.1 x.2.host heard :=
  fun y hy => one y hy x hx

namespace Outlook

open Discovery

variable {σ : Type} [DecidableEq σ] {c : DiscoveryConfig}

/-- **The sessions that an event closes** are those of the routes that it takes away or
gives another protocol. -/
theorem closed_by_step (o : Outlook σ) (e : Event σ) :
    (o.step c e).2.Perm (RouteTable.sessionsOf (o.table.lostTo (o.step c e).1.table)) := by
  cases h : e.heard? c with
  | some x =>
    rw [o.step_of_heard h]
    have handed := RouteTable.sessions_runAll o.table (o.discovery.absorb x.1 x.2).2
    have lost := RouteTable.sessions_of_revised (revises_absorbInto o.discovery o.table x.1 x.2)
    exact (List.perm_append_left_iff _).1 (handed.trans lost.symm)
  | none =>
    have nothing : o.table.lostTo (o.step c e).1.table = [] := by
      refine List.filter_eq_nil_iff.2 ?_
      rintro ⟨p, r⟩ there
      rw [o.protocol?_step_of_unheard h,
        RouteTable.protocol?_of_at? (o.table.mem_routes_iff.1 there)]
      simp
    rw [nothing]
    cases e with
    | payload topic bytes => rw [o.step_payload_of_unheard h]; rfl
    | use p closed offered => rfl
    | detach p session => rfl

/-- A host that no announcement names has no routes. -/
theorem protocol?_of_stranger {events : List (Event σ)} {p : Place}
    (stranger : ∀ x ∈ heard c events, x.2.host ≠ p.host) :
    (run c events).table.protocol? p = none := by
  induction events using List.reverseRecOn with
  | nil => rfl
  | append_singleton events e ih =>
    rw [run_concat]
    cases h : e.heard? c with
    | none =>
      rw [heard_concat_of_none events h] at stranger
      rw [protocol?_step_of_unheard _ h, ih stranger]
    | some x =>
      rw [heard_concat_of_some events h] at stranger
      have other := stranger x (List.mem_append_right _ (List.mem_singleton_self _))
      rw [step_of_heard _ h, ← ih fun y hy => stranger y (List.mem_append_left _ hy)]
      exact protocol?_absorbInto_of_ne _ _ _ other

/-- **What discovery has made of some events**, and what it will make of the next one. -/
structure Bookkept (c : DiscoveryConfig) (events : List (Event σ)) : Prop where
  /-- A host has, for each topic, the one route that its node listed last since it last
  left, or none. -/
  routes : ∀ x ∈ heard c events, ∀ topic, (run c events).table.capabilities topic x.2.host =
    (lastListed (announcementsOn x.1 (heard c events)) topic).toList
  /-- There are no routes to other hosts. -/
  hosts : ∀ p, (run c events).table.at? p ≠ none → ∃ x ∈ heard c events, x.2.host = p.host
  /-- The ports that are remembered are those of the routes. -/
  ports : ∀ node topic, (run c events).discovery.known? node topic =
    (lastListed (announcementsOn node (heard c events)) topic).map Capability.port
  /-- Cleared announcements, the node's own and those that cannot be read change nothing. -/
  unheard : ∀ topic bytes,
    (bytes = [] ∨ topic = c.nodeTopic ∨ ∃ fault, Announcement.decode bytes = .error fault) →
      (run c events).step c (.payload topic bytes) = (run c events, [])
  /-- Closed are the sessions of the routes that are taken away or get another protocol. -/
  closed : ∀ e, ((run c events).step c e).2.Perm (RouteTable.sessionsOf
    ((run c events).table.lostTo ((run c events).step c e).1.table))

omit [DecidableEq σ] in
/-- Which payloads hold nothing to hear. -/
theorem unheard_of {topic : String} {bytes : Bytes}
    (h : bytes = [] ∨ topic = c.nodeTopic ∨ ∃ fault, Announcement.decode bytes = .error fault) :
    (Event.payload topic bytes : Event σ).heard? c = none := by
  simp only [Event.heard?, Discovery.heard?]
  rcases h with rfl | rfl | ⟨fault, undecodable⟩
  · rfl
  · simp
  · rw [undecodable]
    split
    · next h =>
      split at h <;> cases h
    · rfl

/-- **Discovery keeps its books**: whatever payloads come and whatever sessions come and
go, the routes and the remembered ports are what the announcements say, if nodes and
hosts correspond one to one. -/
theorem bookkept {events : List (Event σ)} (one : OneHostEach (heard c events)) :
    Bookkept c events where
  routes x hx topic := capabilities_run (one.paired hx) topic
  hosts p there := by
    refine Classical.byContradiction fun stranger => there ?_
    have none_there : (run c events).table.protocol? p = none :=
      protocol?_of_stranger fun x hx named => stranger ⟨x, hx, named⟩
    exact Option.map_eq_none_iff.1 none_there
  ports node topic := known?_run events node topic
  unheard topic bytes h := step_payload_of_unheard _ (unheard_of h)
  closed e := closed_by_step _ e

/-- Two nodes announce themselves, a session is made, one of the nodes moves a topic, and
something that cannot be read comes in between. -/
theorem bookkept_after_move :
    let c : DiscoveryConfig := ⟨"me", "h", "d", true⟩
    let atPort (port : UInt16) : Announcement :=
      ⟨.connected, "hx", .ofList [("t", ⟨.stream, port⟩)]⟩
    let events : List (Event Nat) := [.announced "d/x" (atPort 1), .use ⟨"t", "hx", 1⟩ (fun _ => false) 0,
      .announced "d/y" ⟨.connected, "hy", .ofList [("t", ⟨.broker, 0⟩)]⟩, .payload "d/y" [0xff],
      .announced "d/me" (atPort 3), .announced "d/x" (atPort 2)]
    OneHostEach (heard c events) ∧ (heard c events).length = 3 ∧ Bookkept c events := by
  intro c atPort events
  have one : OneHostEach (heard c events) := by decide +kernel
  exact ⟨one, by decide +kernel, bookkept one⟩

end Outlook

end TopicMesh
