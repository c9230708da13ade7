import TopicMesh.Proofs.Node.Consistency

/-!
# Whether a node has announced what it serves

The subscriptions of a node, what it is about to announce and the announcement that
the broker keeps are three copies of one fact, which different calls change.  Two
histories let them drift apart:

* the node is told to leave while its line is down: its subscriptions are gone, but
  what they served is still to be announced (`Orphaned`), until the topic is served
  again or the node leaves while its line is connected;
* the line comes back when nothing is left to announce, and the broker still keeps an
  older announcement (`Outlived`), until the node serves something again.

**In every connected state the announcement is what the node serves, if and only if
neither has happened** (`announced_iff_served`).
-/

namespace TopicMesh.Station

open Node Act

/-! ## Histories -/

/-- What happens to a node, or around it. -/
inductive Happening
  | call (c : Call)
  | request (topic : String) (payload : Bytes) (qos : QoS) (correlation : Option String)
    (callback : String)
  /-- Subscriptions of answers that are due are dropped. -/
  | chores (topics : List String)
  /-- A frame from the broker reaches the node. -/
  | frame (f : ServerFrame)
  /-- A payload reaches the node directly. -/
  | arrival (d : Delivery)
  /-- Others act at the hub and on the network, and what fails by itself changes. -/
  | elsewhere (hub : Hub) (network : DirectNetwork) (outage : Outage)

/-- The station after something has happened. -/
def Happening.result (s : Station) : Happening → Station
  | call c => after c.act s
  | request topic payload qos correlation callback =>
    after (Node.request topic payload qos correlation callback) s
  | chores topics => after (Node.doChores topics) s
  | frame f => { s with node := s.node.onFrame f }
  | arrival d => { s with node := s.node.deliver d }
  | elsewhere hub network outage => { s with hub := hub, network := network, outage := outage }

/-- Whether something can happen: others leave the node's client and its announcement
topic alone, and the line's calls do not fail by themselves. -/
def Happening.Allowed (s : Station) : Happening → Prop
  | elsewhere hub _ outage =>
    hub.broker.clients.get? s.node.id = s.hub.broker.clients.get? s.node.id ∧
      hub.kept s.node.config.discovery.nodeTopic = s.kept ∧ ∀ call, outage.line call = none
  | _ => True

/-- Something that has happened. -/
structure Event where
  before : Station
  what : Happening
  after : Station

/-- The stations that are reached from a start, each with its history, newest first. -/
inductive Reached (start : Station) : List Event → Station → Prop
  | start : Reached start [] start
  | step {past : List Event} {s : Station} {h : Happening} : Reached start past s → h.Allowed s →
    Reached start (⟨s, h, h.result s⟩ :: past) (h.result s)

/-- Whether a topic was served when the node left with its line down, and neither has
been served since nor has the node left with its line connected. -/
def Orphaned (topic : String) : List Event → Prop
  | [] => False
  | e :: past =>
    (e.what = .call .disconnect ∧ e.before.isConnected = false ∧ e.before.served topic ≠ none) ∨
      (Orphaned topic past ∧ ¬(e.what = .call .disconnect ∧ e.before.isConnected = true) ∧
        e.after.served topic = none)

/-- Whether the line came back when an announcement was kept and nothing was left to
announce, and is still connected with nothing served. -/
def Outlived : List Event → Prop
  | [] => False
  | e :: past =>
    (e.what = .call .connect ∧ e.before.isConnected = false ∧ e.before.announced ≠ .empty ∧
        ∀ topic, e.before.served topic = none ∧ ¬Orphaned topic past) ∨
      (Outlived past ∧ e.after.isConnected = true ∧ ∀ topic, e.after.served topic = none)

variable {s s' : Station} {orphan : String → Prop} {outlived : Prop}

/-! ## Runs -/

/-- Neither history begins at anything but a `connect` and a `disconnect`: else they go
on for as long as nothing that they are about is served. -/
theorem Consistent.goes_on {past : List Event} {what : Happening}
    (h : Consistent (fun topic => Orphaned topic past) (Outlived past) s')
    (stays : what ≠ .call .connect ∧ what ≠ .call .disconnect) :
    Consistent (fun topic => Orphaned topic (⟨s, what, s'⟩ :: past))
      (Outlived (⟨s, what, s'⟩ :: past)) s' := by
  refine h.congr (fun topic => ⟨fun o => ?_, fun o => ?_⟩) ⟨fun o => ?_, fun o => ?_⟩
  · exact .inr ⟨o, fun leaves => stays.2 leaves.1, h.gone topic o⟩
  · exact o.elim (fun leaves => absurd leaves.1 stays.2) And.left
  · obtain ⟨up, empty, -⟩ := h.stale o
    exact .inr ⟨o, up, fun topic => (h.of_isEmpty empty topic).1⟩
  · exact o.elim (fun joins => absurd joins.1 stays.1) And.left

/-- A topic that is served anew is no orphan, and what it is announced by outlives nothing. -/
theorem Consistent.serves {past : List Event} {what : Happening} {topic : String} {c : Capability}
    (h : Consistent (fun other => Orphaned other past ∧ topic ≠ other) False s')
    (stays : what ≠ .call .connect ∧ what ≠ .call .disconnect)
    (served : s'.served topic = some c) :
    Consistent (fun other => Orphaned other (⟨s, what, s'⟩ :: past))
      (Outlived (⟨s, what, s'⟩ :: past)) s' := by
  refine h.congr (fun other => ⟨fun o => ?_, fun o => ?_⟩) ⟨False.elim, fun o => ?_⟩
  · exact .inr ⟨o.1, fun leaves => stays.2 leaves.1, h.gone other o⟩
  · obtain ⟨leaves, -⟩ | ⟨before, -, none_served⟩ := o
    · exact absurd leaves stays.2
    · refine ⟨before, fun same => ?_⟩
      subst same
      exact Option.some_ne_none c (served.symm.trans none_served)
  · obtain ⟨joins, -⟩ | ⟨-, -, none_served⟩ := o
    · exact absurd joins stays.1
    · exact Option.some_ne_none c (served.symm.trans (none_served topic))

theorem consistent_step {past : List Event} {what : Happening}
    (h : Consistent (fun topic => Orphaned topic past) (Outlived past) s)
    (allowed : what.Allowed s) :
    Consistent (fun topic => Orphaned topic (⟨s, what, what.result s⟩ :: past))
      (Outlived (⟨s, what, what.result s⟩ :: past)) (what.result s) := by
  match what with
  | .request topic payload qos correlation callback =>
    exact (consistent_fades h (fades_request h.steady h.announceable ..)).goes_on (by simp)
  | .chores topics =>
    exact (consistent_fades h (fades_doChores topics h.steady h.announceable)).goes_on (by simp)
  | .frame f => exact (consistent_calm h (calm_onFrame h.steady f)).goes_on (by simp)
  | .arrival d => exact (consistent_calm h (calm_deliver h.steady d)).goes_on (by simp)
  | .elsewhere hub network outage =>
    obtain ⟨client, kept, steady⟩ := allowed
    have calm : Calm s ⟨s.node, hub, network, outage⟩ :=
      ⟨steady, rfl, rfl, fun _ => rfl, rfl, client, kept⟩
    exact (consistent_calm h calm).goes_on (by simp)
  | .call (.unsubscribe topic) =>
    exact (consistent_fades h (fades_unsubscribe h.steady h.announceable topic)).goes_on (by simp)
  | .call (.subscribe topic callback protocols qos) =>
    rcases subscribe_fades_or_serves h.steady h.announceable topic callback protocols qos with
      fades | ⟨record, network, advertised, -, plain, -, made⟩
    · exact (consistent_fades h fades).goes_on (by simp)
    · have stays : Happening.call (.subscribe topic callback protocols qos) ≠ .call .connect ∧
          Happening.call (.subscribe topic callback protocols qos) ≠ .call .disconnect := by simp
      have next := consistent_subscribed h plain advertised network
      have served := (served_subscribed advertised network (s := s) topic).trans (if_pos rfl)
      rw [← made] at next served
      exact next.serves stays served
  | .call .connect =>
    obtain ⟨up, next⟩ := consistent_connect h
    refine next.congr (fun topic => ⟨fun o => ?_, fun o => ?_⟩) ⟨fun o => ?_, fun o => ?_⟩
    · exact .inr ⟨o, by simp, next.gone topic o⟩
    · exact o.elim (fun leaves => by cases leaves.1) And.left
    · rcases o with ⟨lost, ne, nothing⟩ | o
      · exact .inl ⟨rfl, lost, ne, nothing⟩
      · obtain ⟨-, empty, -⟩ := next.stale (.inr o)
        exact .inr ⟨o, up, fun topic => (next.of_isEmpty empty topic).1⟩
    · rcases o with ⟨-, began⟩ | ⟨o, -⟩
      · exact .inl began
      · exact .inr o
  | .call .disconnect =>
    obtain ⟨lost, next⟩ := consistent_disconnect h
    refine next.congr (fun topic => ⟨fun o => ?_, fun o => ?_⟩) ⟨False.elim, ?_⟩
    · have none_served := next.gone topic o
      obtain ⟨down, served | before⟩ := o
      · exact .inl ⟨rfl, down, served⟩
      · refine .inr ⟨before, fun leaves => ?_, none_served⟩
        exact Bool.false_ne_true (down.symm.trans leaves.2)
    · rcases o with ⟨-, down, served⟩ | ⟨before, stays, -⟩
      · exact ⟨down, .inl served⟩
      · exact ⟨by simpa using stays, .inr before⟩
    · rintro (⟨joins, -⟩ | ⟨-, up, -⟩)
      · cases joins
      · exact absurd (lost.symm.trans up) (by simp)
  | .call .abort =>
    obtain ⟨lost, next⟩ := consistent_abort h
    refine next.congr (fun topic => ⟨fun o => ?_, fun o => ?_⟩) ⟨False.elim, ?_⟩
    · exact .inr ⟨o, by simp, next.gone topic o⟩
    · exact o.elim (fun leaves => by cases leaves.1) And.left
    · rintro (⟨joins, -⟩ | ⟨-, up, -⟩)
      · cases joins
      · exact absurd (lost.symm.trans up) (by simp)

theorem consistent_run {start : Station} {past : List Event} (starting : Starting start)
    (host : start.node.config.discovery.host ≠ "")
    (short : Announcement.TextFits start.node.config.discovery.host)
    (reached : Reached start past s) :
    Consistent (fun topic => Orphaned topic past) (Outlived past) s := by
  induction reached with
  | start => exact consistent_start starting host short
  | step _ allowed ih => exact consistent_step ih allowed

/-- What is announced if nothing is outlived: what is about to be announced. -/
theorem Consistent.announced_eq (h : Consistent orphan outlived s) (up : s.isConnected = true)
    (fresh : ¬outlived) (fits : s.node.ownAnnouncement.Fits) :
    s.announced = s.node.discovery.advertised := by
  have own := h.own up fresh
  unfold AnnouncesOwn at own
  split at own
  · next empty => rw [own, KeyMap.eq_empty_of_isEmpty empty]
  · rw [announced, own, announcedIn_write fits h.announceable.host h.announceable.keys]
    rfl

/-! ## Announced and served -/

/-- Goes on by something that happens. -/
def happens (run : List Event × Station) (h : Happening) : List Event × Station :=
  (⟨run.2, h, h.result run.2⟩ :: run.1, h.result run.2)

/-- A run of calls, from a start. -/
def runOf (start : Station) (calls : List Call) : List Event × Station :=
  (calls.map .call).foldl happens ([], start)

theorem reached_runOf (start : Station) (calls : List Call) :
    Reached start (runOf start calls).1 (runOf start calls).2 := by
  have extend : ∀ (calls : List Call) (run : List Event × Station), Reached start run.1 run.2 →
      Reached start ((calls.map Happening.call).foldl happens run).1
        ((calls.map Happening.call).foldl happens run).2 := by
    intro calls
    induction calls with
    | nil => exact fun _ reached => reached
    | cons c rest ih => exact fun run reached => ih _ (.step reached trivial)
  exact extend calls ([], start) .start

/-- A node with a stream transport, alone at its hub. -/
def lone (lastWill : Bool) : Station :=
  ⟨.new ⟨⟨"n", "h", "b", lastWill⟩, default, 0, 0, [.stream]⟩, .empty 0, .empty 7000, .none⟩

theorem starting_lone (lastWill : Bool) : Starting (lone lastWill) :=
  ⟨fun _ => rfl, rfl, rfl, rfl⟩

/-- Serving a topic as a stream. -/
def serving : Call :=
  .subscribe "t" ⟨"c", none⟩ (.only .stream) .atMostOnce

/-- **A connected node has announced what it serves, if and only if no topic is orphaned
and no announcement is outlived**, for every order of calls and lost lines. -/
theorem announced_iff_served {start : Station} {past : List Event} (starting : Starting start)
    (host : start.node.config.discovery.host ≠ "")
    (short : Announcement.TextFits start.node.config.discovery.host)
    (reached : Reached start past s) (up : s.isConnected = true)
    (fits : s.node.ownAnnouncement.Fits) :
    (∀ topic, s.announced.get? topic = s.served topic) ↔
      (∀ topic, ¬Orphaned topic past) ∧ ¬Outlived past := by
  have h := consistent_run starting host short reached
  constructor
  · intro agree
    have fresh : ¬Outlived past := by
      intro o
      obtain ⟨-, empty, ne⟩ := h.stale o
      refine ne (KeyMap.ext_get? fun topic => ?_)
      rw [agree, (h.of_isEmpty empty topic).1]
      rfl
    refine ⟨fun topic o => ?_, fresh⟩
    have none_served := h.gone topic o
    refine (h.orphans topic none_served).2 o ?_
    rw [← h.announced_eq up fresh fits, agree, none_served]
  · rintro ⟨none_orphaned, fresh⟩ topic
    rw [h.announced_eq up fresh fits]
    cases hs : s.served topic with
    | some c => exact h.offered topic c hs
    | none =>
      exact Classical.byContradiction fun ne => none_orphaned topic ((h.orphans topic hs).1 ne)

/-- A lost line alone lets nothing drift: the node serves again what it served before. -/
theorem announced_after_rejoining :
    let run := runOf (lone true) [.connect, serving, .abort, .connect]
    run.2.isConnected = true ∧
      ((∀ topic, run.2.announced.get? topic = run.2.served topic) ↔
        (∀ topic, ¬Orphaned topic run.1) ∧ ¬Outlived run.1) := by
  refine ⟨by decide +kernel, announced_iff_served (starting_lone true) (by decide) (by decide)
    (reached_runOf ..) (by decide +kernel) ⟨by decide +kernel, by decide +kernel, ?_⟩⟩
  decide +kernel

/-- Whether the newest call that joins or changes what is subscribed has succeeded. -/
def LastSucceeded : List Event → Prop
  | [] => True
  | ⟨s, .call c, _⟩ :: past =>
    if c = .disconnect ∨ c = .abort then LastSucceeded past else succeeds c.act s = true
  | _ :: past => LastSucceeded past

/-- A node that left with its line down comes back and announces what it no longer
serves. -/
theorem not_always_served :
    ¬∀ (start s : Station) (past : List Event), Starting start →
      start.node.config.discovery.host ≠ "" → Reached start past s → s.isConnected = true →
      LastSucceeded past → ∀ topic, s.announced.get? topic = s.served topic := by
  intro always
  have agree := always _ _ _ (starting_lone true) (by decide)
    (reached_runOf _ [.connect, serving, .abort, .disconnect, .connect]) (by decide +kernel)
    (by decide +kernel : succeeds _ _ = true) "t"
  revert agree
  decide +kernel

end TopicMesh.Station
