import TopicMesh.Proofs.Mesh.Roster
import TopicMesh.Proofs.Node.Hearing
import TopicMesh.Proofs.Node.Subscribing

/-!
# Nodes that listen

A node **attends** to the others (`Attends`) if its routes name the hosts and ports that
they are kept under, if its routes to each host are at the ports that it knows from
there, and if, while its line is attached,

* it is listed below the discovery filter,
* for each announcement topic what is kept is the last payload that waits for it, or
  nothing waits and it has heard what is kept (`Heard`),
* nothing waits for it in the inboxes of its earlier lines.

Whatever others do at the hub leaves that as it is (`attends_worked`,
`attends_register`, `attends_cleanup`, `attends_closeInbox`), and so does each frame
that the node takes (`attends_onFrame`).
-/

namespace TopicMesh.Node

variable {base : String} {configs : List DiscoveryConfig} {c : DiscoveryConfig} {h h' : Hub}
  {n n' : Node}

/-- Whether a node's routes to a host are what an announcement says, if that can be
read. -/
def Heard (n : Node) (host : String) (payload : Bytes) : Prop :=
  ∀ a, Announcement.decode payload = .ok a → Discovery.Follows n.table host a

/-- Whether a node attends to the others. -/
structure Attends (configs : List DiscoveryConfig) (h : Hub) (n : Node) : Prop where
  labelled : n.table.Labelled
  tracks : ∀ topic host, Speaks configs topic host → topic ≠ n.config.discovery.nodeTopic →
    n.discovery.Tracks n.table topic host
  listens : ∀ current, n.line.inbox = some current → h.Listens n.config.discovery.filter n.id
  latest : ∀ current, n.line.inbox = some current → ∀ topic host, Speaks configs topic host →
    topic ≠ n.config.discovery.nodeTopic → h.Latest current topic (n.Heard host)
  quiet : ∀ current, n.line.inbox = some current → ∀ inbox, h.ownerOf? inbox = some n.id →
    inbox ≠ current → h.framesIn inbox = []

/-- A node that is not attached to the hub has to attend to its routes only. -/
theorem attends_of_lost (lost : n.line.inbox = none) (labelled : n.table.Labelled)
    (tracks : ∀ topic host, Speaks configs topic host → topic ≠ n.config.discovery.nodeTopic →
      n.discovery.Tracks n.table topic host) : Attends configs h n := by
  refine ⟨labelled, tracks, fun current e => ?_, fun current e => ?_, fun current e => ?_⟩ <;>
  · rw [lost] at e
    cases e

/-- Whether a node holds of the others what another one holds, with the same inbox. -/
structure SameView (n n' : Node) : Prop where
  config : n'.config = n.config
  line : n'.line.inbox = n.line.inbox
  announced : n'.discovery.announced = n.discovery.announced
  table : n'.table = n.table

theorem SameView.refl (n : Node) : SameView n n := ⟨rfl, rfl, rfl, rfl⟩

theorem SameView.tracks (same : SameView n n') {topic host : String}
    (tracks : n.discovery.Tracks n.table topic host) :
    n'.discovery.Tracks n'.table topic host := by
  intro other port there
  rw [same.table] at there
  rw [Discovery.known?, same.announced]
  exact tracks other port there

theorem SameView.heard (same : SameView n n') {host : String} : n'.Heard host = n.Heard host := by
  funext payload
  rw [Heard, Heard, same.table]

theorem SameView.id (same : SameView n n') : n'.id = n.id :=
  congrArg (fun c : NodeConfig => c.discovery.nodeId) same.config

/-! ## What others do -/

/-- An earlier inbox of a node is read by nobody. -/
theorem unread_of_earlier (sound : h.Sound) (reads : h.inboxOf n.id = n.line.inbox)
    {current inbox : Nat} (attached : n.line.inbox = some current)
    (owner : h.ownerOf? inbox = some n.id) (earlier : inbox ≠ current) (client : String) :
    h.inboxOf client ≠ some inbox := by
  intro read
  have same := (sound.ownerOf?_of_inboxOf read).symm.trans owner
  rw [Option.some.inj same, reads, attached] at read
  exact earlier (Option.some.inj read).symm

/-- Work at the hub, the node's own or another's. -/
theorem attends_worked (roster : Roster base configs) (hc : c ∈ configs)
    (listed : n.config.discovery ∈ configs) (sound : h.Sound)
    (reads : h.inboxOf n.id = n.line.inbox) (work : Hub.Worked c h h') (same : SameView n n')
    (attends : Attends configs h n) : Attends configs h' n' := by
  have filter : n.config.discovery.filter = c.filter := roster.same_filter hc listed
  refine ⟨?_, ?_, ?_, ?_, ?_⟩
  · rw [same.table]
    exact attends.labelled
  · intro topic host speaks other
    rw [same.config] at other
    exact same.tracks (attends.tracks topic host speaks other)
  · intro current attached
    rw [same.line] at attached
    have listens := attends.listens current attached
    rw [same.config, same.id, filter]
    rw [filter] at listens
    exact work.listens listens
  · intro current attached topic host speaks other
    rw [same.line] at attached
    rw [same.config] at other
    rw [same.heard]
    have listens := attends.listens current attached
    rw [filter] at listens
    exact work.latest sound (reads.trans attached) listens (roster.filter_matches hc speaks)
      (attends.latest current attached topic host speaks other)
  · intro current attached inbox owner earlier
    rw [same.line] at attached
    rw [same.id, work.ownerOf?] at owner
    rw [work.framesIn_unread sound (unread_of_earlier sound reads attached owner earlier)]
    exact attends.quiet current attached inbox owner earlier

theorem attends_register (sound : h.Sound) {client : String} (other : client ≠ n.id)
    (will : Option Will) (attends : Attends configs h n) :
    Attends configs (h.register client will).1 n := by
  refine ⟨attends.labelled, attends.tracks, attends.listens, ?_, ?_⟩
  · intro current attached topic host speaks foreign
    exact Hub.latest_register sound (attends.latest current attached topic host speaks foreign) will
  · intro current attached inbox owner earlier
    rw [Hub.ownerOf?_register] at owner
    split at owner
    · exact absurd (Option.some.inj owner) other
    · rw [Hub.framesIn_register client will sound]
      exact attends.quiet current attached inbox owner earlier

theorem attends_cleanup {client : String} (other : client ≠ n.id) (attends : Attends configs h n) :
    Attends configs (h.cleanup client true) n := by
  refine ⟨attends.labelled, attends.tracks, ?_, attends.latest, attends.quiet⟩
  intro current attached
  exact Hub.listens_cleanup (attends.listens current attached) other true

theorem attends_closeInbox {closed : Nat} (other : n.line.inbox ≠ some closed)
    (attends : Attends configs h n) : Attends configs (h.closeInbox closed) n := by
  refine ⟨attends.labelled, attends.tracks, attends.listens, ?_, ?_⟩
  · intro current attached topic host speaks foreign
    refine Hub.latest_closeInbox (attends.latest current attached topic host speaks foreign) ?_
    rintro rfl
    exact other attached
  · intro current attached inbox owner earlier
    rw [Hub.ownerOf?_closeInbox] at owner
    split at owner
    · cases owner
    · rw [Hub.framesIn_closeInbox]
      split
      · rfl
      · exact attends.quiet current attached inbox owner earlier

/-! ## Taking a frame -/

section Taking

variable {inbox : Nat} {client : String} {frame : ServerFrame}

theorem listens_of_pop? (popped : h.pop? inbox = some (h', client, frame))
    (attends : Attends configs h n) (current : Nat) (attached : n.line.inbox = some current) :
    h'.Listens n.config.discovery.filter n.id := by
  unfold Hub.Listens
  rw [Hub.broker_of_pop? popped]
  exact attends.listens current attached

theorem quiet_of_pop? (popped : h.pop? inbox = some (h', client, frame))
    (attends : Attends configs h n) (current : Nat) (attached : n.line.inbox = some current)
    (other : Nat) (owner : h'.ownerOf? other = some n.id) (earlier : other ≠ current) :
    h'.framesIn other = [] := by
  rw [(Hub.ownerOf?_of_pop? popped other).1] at owner
  have before := attends.quiet current attached other owner earlier
  rw [Hub.framesIn_of_pop? popped other] at before
  exact (List.append_eq_nil_iff.1 before).2

/-- A frame that another node takes. -/
theorem attends_of_pop? (sound : h.Sound) (reads : h.inboxOf n.id = n.line.inbox)
    (popped : h.pop? inbox = some (h', client, frame)) (other : client ≠ n.id)
    (attends : Attends configs h n) : Attends configs h' n := by
  refine ⟨attends.labelled, attends.tracks, listens_of_pop? popped attends, ?_,
    quiet_of_pop? popped attends⟩
  intro current attached topic host speaks foreign
  have apart : inbox ≠ current := by
    rintro rfl
    have owner := (Hub.ownerOf?_of_pop? popped inbox).2
    rw [sound.ownerOf?_of_inboxOf (reads.trans attached)] at owner
    exact other (Option.some.inj owner).symm
  exact Hub.latest_of_pop?_elsewhere popped apart
    (attends.latest current attached topic host speaks foreign)

theorem follows_congr {t t' : RouteTable Nat} {host : String}
    (same : ∀ topic port, t'.route? topic host port = t.route? topic host port) {a : Announcement} :
    Discovery.Follows t' host a ↔ Discovery.Follows t host a := by
  unfold Discovery.Follows
  simp only [same]

/-- An announcement of another node is all about one host. -/
theorem view_of_announcement (roster : Roster base configs) {topic : String} {a : Announcement}
    {payload : Bytes} (speaks : Speaks configs topic a.host) (encoded : a.encode = .ok payload)
    (foreign : topic ≠ n.config.discovery.nodeTopic) (labelled : n.table.Labelled)
    (tracks : ∀ topic host, Speaks configs topic host → topic ≠ n.config.discovery.nodeTopic →
      n.discovery.Tracks n.table topic host) :
    let view := n.viewAfter topic payload
    (∀ b, Announcement.decode payload = .ok b → Discovery.Follows view.2 a.host b) ∧
      view.2.Labelled ∧
      (∀ topic' host, Speaks configs topic' host → topic' ≠ n.config.discovery.nodeTopic →
        view.1.Tracks view.2 topic' host) ∧
      ∀ host, host ≠ a.host → ∀ topic' port,
        view.2.route? topic' host port = n.table.route? topic' host port := by
  intro view
  have nonempty : payload ≠ [] := by
    rw [(Announcement.encode_eq_ok encoded).2.2]
    exact Announcement.write_ne_nil a
  have is_view : view = _ := n.viewAfter_of_ne nonempty foreign
  cases decoded : Announcement.decode payload with
  | error e =>
    rw [decoded] at is_view
    rw [is_view]
    refine ⟨?_, labelled, tracks, fun _ _ _ _ => rfl⟩
    intro b read
    cases read
  | ok b =>
    rw [decoded] at is_view
    rw [is_view]
    have short : Announcement.TextFits a.host := by
      obtain ⟨c, hc, -, same_host⟩ := speaks
      rw [← same_host]
      exact roster.short c hc
    have host : b.host = a.host := (Announcement.status_host_of_decode short encoded decoded).2
    rw [← host] at speaks ⊢
    refine ⟨?_, Discovery.labelled_absorbInto _ labelled _ _, ?_, ?_⟩
    · intro b' read
      cases read
      exact Discovery.follows_absorbInto ..
    · intro topic' host' speaks' foreign'
      by_cases same : topic' = topic
      · subst same
        obtain rfl := roster.host_unique speaks speaks'
        exact Discovery.tracks_absorbInto (tracks topic' b.host speaks' foreign')
      · -- the other topic has another host, so nothing changes there
        have apart : b.host ≠ host' := by
          rintro rfl
          exact same (roster.topic_unique speaks' speaks)
        intro other port there
        rw [Discovery.known?_absorbInto_of_ne _ _ _ (Ne.symm same)]
        rw [Discovery.route?_absorbInto_of_ne _ _ _ apart] at there
        exact tracks topic' host' speaks' foreign' other port there
    · intro host' apart topic' port
      exact Discovery.route?_absorbInto_of_ne _ _ _ (Ne.symm apart) topic' port

theorem heard_congr {host : String}
    (same : ∀ topic port, n'.table.route? topic host port = n.table.route? topic host port)
    {payload : Bytes} (heard : n.Heard host payload) : n'.Heard host payload :=
  fun a read => (follows_congr same).2 (heard a read)

/-- A frame that the node takes was in its present inbox, as nothing waits in an earlier
one. -/
theorem present_of_pop? (popped : h.pop? inbox = some (h', n.id, frame))
    (attends : Attends configs h n) {current : Nat} (attached : n.line.inbox = some current) :
    inbox = current := by
  refine Classical.byContradiction fun earlier => ?_
  have nothing := attends.quiet current attached inbox (Hub.ownerOf?_of_pop? popped inbox).2 earlier
  have taken : frame ∈ h.framesIn inbox := by
    rw [Hub.framesIn_of_pop? popped inbox, if_pos rfl]
    exact List.mem_cons_self
  rw [nothing] at taken
  cases taken

/-- What a frame that the node takes makes of its view: the frame is of no account, or it
is the oldest announcement of another node that waits, and the node hears it. -/
theorem view_of_taken (roster : Roster base configs) (listed : n.config.discovery ∈ configs)
    (truthful : h.Truthful (Says configs))
    (popped : h.pop? inbox = some (h', n.id, frame)) (attends : Attends configs h n) :
    (n.onFrame frame).table.Labelled ∧
      (∀ topic host, Speaks configs topic host → topic ≠ n.config.discovery.nodeTopic →
        (n.onFrame frame).discovery.Tracks (n.onFrame frame).table topic host) ∧
      ∀ topic host, Speaks configs topic host → topic ≠ n.config.discovery.nodeTopic →
        h.Latest inbox topic (n.Heard host) →
          h'.Latest inbox topic ((n.onFrame frame).Heard host) := by
  cases frame with
  | accepted _ =>
    exact ⟨attends.labelled, attends.tracks,
      fun _ _ _ _ => Hub.latest_of_pop?_unmoved popped rfl fun _ heard => heard⟩
  | refused _ =>
    exact ⟨attends.labelled, attends.tracks,
      fun _ _ _ _ => Hub.latest_of_pop?_unmoved popped rfl fun _ heard => heard⟩
  | deliver m =>
    have taken : .deliver m ∈ h.framesIn inbox := by
      rw [Hub.framesIn_of_pop? popped inbox, if_pos rfl]
      exact List.mem_cons_self
    obtain ⟨a, speaker, encoded⟩ := truthful.frames inbox m taken
    obtain ⟨sessions, hears⟩ := n.hear_eq m.topic m.payload
    have is_heard : n.onFrame (.deliver m) = n.hear m.topic m.payload :=
      if_pos (roster.isDiscoveryTopic listed speaker)
    rw [is_heard, hears]
    by_cases own : m.topic = n.config.discovery.nodeTopic
    · rw [own, n.viewAfter_own]
      refine ⟨attends.labelled, attends.tracks, fun topic host _ foreign => ?_⟩
      refine Hub.latest_of_pop?_unmoved popped (if_neg fun same => ?_) fun _ heard => heard
      exact foreign (same.symm.trans own)
    · obtain ⟨follows, labelled, tracks, others⟩ :=
        view_of_announcement roster speaker encoded own attends.labelled attends.tracks
      refine ⟨labelled, tracks, fun topic host speaks _ latest => ?_⟩
      by_cases same : m.topic = topic
      · subst same
        obtain rfl := roster.host_unique speaker speaks
        exact Hub.latest_of_pop?_taken popped (if_pos rfl) follows latest
      · have apart : host ≠ a.host := by
          rintro rfl
          exact same (roster.topic_unique speaker speaks)
        exact Hub.latest_of_pop?_unmoved popped (if_neg same)
          (fun _ => heard_congr (others host apart)) latest

/-- **A node that takes a frame goes on to attend to the others.** -/
theorem attends_onFrame (roster : Roster base configs) (listed : n.config.discovery ∈ configs)
    (truthful : h.Truthful (Says configs))
    (popped : h.pop? inbox = some (h', n.id, frame)) (attends : Attends configs h n) :
    Attends configs h' (n.onFrame frame) := by
  obtain ⟨config, line, -⟩ := n.onFrame_keeps frame
  have same_id : (n.onFrame frame).id = n.id :=
    congrArg (fun c : NodeConfig => c.discovery.nodeId) config
  obtain ⟨labelled, tracks, latest⟩ := view_of_taken roster listed truthful popped attends
  refine ⟨labelled, ?_, ?_, ?_, ?_⟩
  · rw [config]
    exact tracks
  · rw [line, config, same_id]
    exact listens_of_pop? popped attends
  · rw [line, config]
    intro current attached topic host speaks foreign
    obtain rfl := present_of_pop? popped attends attached
    exact latest topic host speaks foreign
      (attends.latest inbox attached topic host speaks foreign)
  · rw [line, same_id]
    exact quiet_of_pop? popped attends

end Taking

end TopicMesh.Node
