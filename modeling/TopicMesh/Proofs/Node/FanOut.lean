import TopicMesh.Proofs.Node.Lodging

/-!
# What a publication does

A publication goes once through the broker, if that is wanted and a route leads there
(`asksBroker`), once along each direct route of a wanted protocol (`directRoutes`), and as
one frame along each route that needs a session (`peerPlaces`).  Whether a part of it
fails makes no difference to the others; each failure is reported.  `Station.FanOut` says
this as a whole, and `publish_ok` that a publication does not fail itself.

A frame along a route goes into the session that the route holds, or into a new one
(`Lodging.serve`).  The frames along several routes do not get in each other's way
(`served_serveAll`), because no session stands on two routes (`Housed`).
-/

namespace TopicMesh

/-! ## Sets of protocols -/

namespace ProtocolSet

theorem contains_foldl_insert (ps : List Protocol) (s : ProtocolSet) (q : Protocol) :
    (ps.foldl insert s).contains q = (s.contains q || ps.contains q) := by
  induction ps generalizing s with
  | nil => exact (Bool.or_false _).symm
  | cons p rest ih =>
    rw [List.foldl_cons, ih, contains_insert, List.contains_cons, Bool.or_assoc, Bool.beq_comm]

theorem contains_ofList (ps : List Protocol) (q : Protocol) :
    (ofList ps).contains q = ps.contains q := by
  have none : empty.contains q = false := by cases q <;> rfl
  rw [ofList, contains_foldl_insert, none, Bool.false_or]

/-- The protocols that need no session. -/
theorem contains_split_direct (s : ProtocolSet) (q : Protocol) :
    s.split.1.contains q = true ↔ s.contains q = true ∧ q ≠ .peerRtc := by
  unfold split
  rw [contains_ofList, List.contains_iff_mem, List.mem_filter, mem_toList]
  simp [Protocol.isConnectionOriented]

theorem contains_split_oriented (s : ProtocolSet) :
    s.split.2.contains .peerRtc = s.contains .peerRtc := by
  unfold split
  rw [contains_ofList, Bool.eq_iff_iff, List.contains_iff_mem, List.mem_filter, mem_toList]
  exact and_iff_left rfl

end ProtocolSet

/-! ## Frames along routes -/

/-- A session that has just been made for a place. -/
def PeerSession.fresh (p : Place) : PeerSession :=
  ⟨p.topic, p.host, p.port, [], false, false⟩

/-- The session with one frame more. -/
def PeerSession.add (f : Frame) (s : PeerSession) : PeerSession :=
  { s with frames := s.frames ++ [f] }

namespace Lodging

/-- Whether a session has ended. -/
def hasClosed (l : Lodging) (session : Nat) : Bool :=
  match l.sessions.get? session with
  | some s => s.closed
  | none => true

/-- The session that the route at a place holds, if it has not ended. -/
def open? (l : Lodging) (p : Place) : Option Nat :=
  (l.table.holder? p).filter fun session => !l.hasClosed session

/-- A session is opened for the route at a place. -/
def opened (l : Lodging) (p : Place) : Lodging where
  table := l.table.attach p.topic p.host p.port l.nextSession
  sessions := l.sessions.insert l.nextSession (.fresh p)
  nextSession := l.nextSession + 1

/-- A frame is given to a session. -/
def given (l : Lodging) (f : Frame) (session : Nat) : Lodging :=
  { l with sessions := l.sessions.modify session (.add f) }

/-- A frame is sent along the route at a place: into the session that the route holds,
or into a new one if that has ended or there is none. -/
def serve (f : Frame) (l : Lodging) (p : Place) : Lodging :=
  match l.open? p with
  | some session => l.given f session
  | none => (l.opened p).given f l.nextSession

/-- The session that a frame along the route at a place goes into. -/
def sessionAt (l : Lodging) (p : Place) : Nat :=
  (l.open? p).getD l.nextSession

/-- **What becomes of the sessions when one frame is sent along the route of each of
some places.** -/
structure Served (f : Frame) (places : List Place) (l l' : Lodging) : Prop where
  /-- Each route holds a session then that has got just this frame: the one that it held,
  or a new one if that had ended or there was none. -/
  served : ∀ p ∈ places, ∃ session, l'.table.holder? p = some session ∧
    (l.open? p = some session ∨ l.open? p = none ∧ l.sessions.get? session = none) ∧
      l'.sessions.get? session = some (((l.sessions.get? session).getD (.fresh p)).add f)
  /-- No two of the routes hold the same session. -/
  apart : ∀ p ∈ places, ∀ q ∈ places, l'.table.holder? p = l'.table.holder? q → p = q
  /-- The other sessions are as they were. -/
  others : ∀ session, (∀ p ∈ places, l'.table.holder? p ≠ some session) →
    l'.sessions.get? session = l.sessions.get? session
  /-- The other routes are as they were. -/
  elsewhere : ∀ p, p ∉ places → l'.table.at? p = l.table.at? p
  /-- The routes are where they were, with their protocols. -/
  routes : ∀ p, (l'.table.at? p).map RouteEntry.protocol = (l.table.at? p).map RouteEntry.protocol
  /-- A session is made for each route that holds none that is open. -/
  made : l'.nextSession = l.nextSession + places.countP fun p => (l.open? p).isNone

variable {l : Lodging} {f : Frame} {p : Place}

/-- A session that has not ended is known. -/
theorem exists_of_open? {session : Nat} (open_ : l.open? p = some session) :
    l.table.holder? p = some session ∧ ∃ s, l.sessions.get? session = some s := by
  obtain ⟨held, alive⟩ := Option.filter_eq_some_iff.1 open_
  refine ⟨held, ?_⟩
  unfold hasClosed at alive
  cases known : l.sessions.get? session with
  | some s => exact ⟨s, rfl⟩
  | none => simp [known] at alive

theorem Housed.unknown_next (housed : l.Housed) : l.sessions.get? l.nextSession = none := by
  cases known : l.sessions.get? l.nextSession with
  | none => rfl
  | some s =>
    have home : l.home? l.nextSession = some s.place := by rw [home?, known]; rfl
    exact absurd (housed.numbered _ _ home) (Nat.lt_irrefl _)

theorem Housed.opened (housed : l.Housed) (p : Place) : (l.opened p).Housed := by
  have homes : ∀ session, (l.opened p).home? session =
      if l.nextSession = session then some p else l.home? session := by
    intro session
    show ((l.sessions.insert l.nextSession _).get? session).map _ = _
    rw [KeyMap.get?_insert]
    split <;> rfl
  refine ⟨housed.labelled.assign p (some l.nextSession), fun q session held => ?_,
    fun session q known => ?_⟩
  · unfold Lodging.opened RouteTable.attach RouteTable.holder? at held
    rw [RouteTable.at?_change] at held
    rw [homes]
    split at held
    · next here =>
      obtain ⟨route, found, is⟩ := Option.bind_eq_some_iff.1 held
      obtain ⟨old, -, rfl⟩ := Option.map_eq_some_iff.1 found
      cases is
      rw [if_pos rfl, here]
    · have made := housed.home q session held
      rw [if_neg (Nat.ne_of_gt (housed.numbered session q made)), made]
  · rw [homes] at known
    show session < l.nextSession + 1
    split at known
    · next same => exact same ▸ Nat.lt_succ_self _
    · exact Nat.lt_succ_of_lt (housed.numbered session q known)

theorem Housed.given (housed : l.Housed) (f : Frame) (session : Nat) : (l.given f session).Housed :=
  housed.narrow (.refl l.table) (fun _ => home?_modify l session _ fun _ => rfl) rfl

theorem Housed.serve (housed : l.Housed) (f : Frame) (p : Place) : (l.serve f p).Housed := by
  unfold Lodging.serve
  split
  · exact housed.given f _
  · exact (housed.opened p).given f _

/-! ### One frame -/

theorem get?_serve (housed : l.Housed) (f : Frame) (p : Place) (session : Nat) :
    (l.serve f p).sessions.get? session =
      if l.sessionAt p = session then some (((l.sessions.get? session).getD (.fresh p)).add f)
      else l.sessions.get? session := by
  unfold serve sessionAt
  cases open_ : l.open? p with
  | some held =>
    show (l.sessions.modify held _).get? session = if held = session then _ else _
    rw [KeyMap.get?_modify]
    split
    · next same =>
      obtain ⟨-, s, known⟩ := exists_of_open? open_
      rw [← same, known]
      rfl
    · rfl
  | none =>
    show ((l.sessions.insert l.nextSession _).modify l.nextSession _).get? session =
      if l.nextSession = session then _ else _
    rw [KeyMap.get?_modify, KeyMap.get?_insert]
    split
    · next same =>
      rw [← same, housed.unknown_next]
      rfl
    · rfl

theorem at?_serve (f : Frame) (p q : Place) :
    (l.serve f p).table.at? q =
      if q = p then (l.table.at? p).map fun r => { r with session := some (l.sessionAt p) }
      else l.table.at? q := by
  unfold serve sessionAt
  cases open_ : l.open? p with
  | some held =>
    show l.table.at? q = _
    split
    · next same =>
      -- the route holds the session already
      subst same
      obtain ⟨here, -⟩ := exists_of_open? open_
      obtain ⟨r, found, holds⟩ := Option.bind_eq_some_iff.1 here
      rw [found, Option.map_some, Option.getD_some, ← holds]
    · rfl
  | none => exact RouteTable.at?_change ..

theorem nextSession_serve (f : Frame) (p : Place) :
    (l.serve f p).nextSession = l.nextSession + if (l.open? p).isNone then 1 else 0 := by
  unfold serve
  cases l.open? p <;> rfl

/-! ### A frame each -/

theorem holder?_serve_self (f : Frame) (there : l.table.at? p ≠ none) :
    (l.serve f p).table.holder? p = some (l.sessionAt p) := by
  obtain ⟨r, found⟩ := Option.ne_none_iff_exists'.1 there
  rw [RouteTable.holder?, at?_serve, if_pos rfl, found]
  rfl

theorem at?_serve_of_ne (f : Frame) {q : Place} (other : q ≠ p) :
    (l.serve f p).table.at? q = l.table.at? q := by
  rw [at?_serve, if_neg other]

/-- Two places hold different sessions. -/
theorem Housed.place_eq (housed : l.Housed) {q : Place} {session : Nat}
    (held : l.table.holder? p = some session) (held' : l.table.holder? q = some session) : p = q :=
  Option.some.inj ((housed.home p session held).symm.trans (housed.home q session held'))

/-- A frame along one route leaves the sessions of the others as they are. -/
theorem open?_serve_of_ne (housed : l.Housed) (f : Frame) (there : l.table.at? p ≠ none) {q : Place}
    (other : q ≠ p) : (l.serve f p).open? q = l.open? q := by
  have same : (l.serve f p).table.holder? q = l.table.holder? q := by
    rw [RouteTable.holder?, at?_serve_of_ne f other, RouteTable.holder?]
  unfold open?
  rw [same]
  cases held : l.table.holder? q with
  | none => rfl
  | some session =>
    have apart : l.sessionAt p ≠ session := by
      rintro rfl
      exact other ((housed.serve f p).place_eq (same.trans held) (holder?_serve_self f there))
    have closed : (l.serve f p).hasClosed session = l.hasClosed session := by
      unfold hasClosed
      rw [get?_serve housed, if_neg apart]
    rw [Option.filter_some, Option.filter_some, closed]

theorem Housed.serveAll (housed : l.Housed) (f : Frame) (places : List Place) :
    (places.foldl (Lodging.serve f) l).Housed := by
  induction places generalizing l with
  | nil => exact housed
  | cons p rest ih => exact ih (housed.serve f p)

/-- The session that a frame goes into is the open one, or it is not known yet. -/
theorem Housed.sessionAt_cases (housed : l.Housed) (p : Place) :
    l.open? p = some (l.sessionAt p) ∨
      l.open? p = none ∧ l.sessions.get? (l.sessionAt p) = none := by
  unfold sessionAt
  cases l.open? p with
  | some session => exact .inl rfl
  | none => exact .inr ⟨rfl, housed.unknown_next⟩

/-- One place more: what is done for the others leaves its route and its session alone. -/
theorem Served.cons {l' : Lodging} {rest : List Place} (housed : l.Housed) (housed' : l'.Housed)
    (here : l.table.at? p ≠ none) (fresh : p ∉ rest) (rest_served : Served f rest (l.serve f p) l') :
    Served f (p :: rest) l l' := by
  have held : l'.table.holder? p = some (l.sessionAt p) := by
    rw [RouteTable.holder?, rest_served.elsewhere p fresh]
    exact holder?_serve_self f here
  have apart : ∀ q ∈ rest, l'.table.holder? q ≠ some (l.sessionAt p) := fun q hq same =>
    fresh (housed'.place_eq held same ▸ hq)
  have open_ : ∀ q ∈ rest, (l.serve f p).open? q = l.open? q := fun q hq =>
    open?_serve_of_ne housed f here (ne_of_mem_of_not_mem hq fresh)
  have unchanged : ∀ session, l.sessionAt p ≠ session →
      (l.serve f p).sessions.get? session = l.sessions.get? session := fun session other => by
    rw [get?_serve housed, if_neg other]
  refine ⟨fun q hq => ?_, fun q hq q' hq' same => ?_, fun session unheld => ?_, fun q hq => ?_,
    fun q => ?_, ?_⟩
  · rcases List.mem_cons.1 hq with rfl | hq
    · refine ⟨l.sessionAt q, held, housed.sessionAt_cases q, ?_⟩
      rw [rest_served.others _ apart, get?_serve housed, if_pos rfl]
    · obtain ⟨session, holds, which, got⟩ := rest_served.served q hq
      have other : l.sessionAt p ≠ session := fun same => apart q hq (same ▸ holds)
      rw [open_ q hq, unchanged session other] at which
      rw [unchanged session other] at got
      exact ⟨session, holds, which, got⟩
  · have holds : ∃ session, l'.table.holder? q = some session := by
      rcases List.mem_cons.1 hq with rfl | hq
      · exact ⟨_, held⟩
      · obtain ⟨session, holds, -⟩ := rest_served.served q hq
        exact ⟨session, holds⟩
    obtain ⟨session, holds⟩ := holds
    exact housed'.place_eq holds (same ▸ holds)
  · rw [rest_served.others session fun q hq => unheld q (List.mem_cons_of_mem p hq)]
    exact unchanged session fun same => unheld p List.mem_cons_self (same ▸ held)
  · obtain ⟨other, elsewhere⟩ := not_or.1 (List.mem_cons.not.1 hq)
    rw [rest_served.elsewhere q elsewhere, at?_serve_of_ne f other]
  · rw [rest_served.routes q, at?_serve]
    split
    · next same =>
      rw [same, Option.map_map]
      rfl
    · rfl
  · rw [rest_served.made, nextSession_serve, List.countP_cons, List.countP_congr fun q hq => by
      rw [open_ q hq], Nat.add_assoc, Nat.add_comm (rest.countP _)]

end Lodging

/-! ## What a publication does -/

/-- The place of a route of a topic. -/
def RouteEntry.place (topic : String) (r : RouteEntry Nat) : Place :=
  ⟨topic, r.host, r.port⟩

namespace Node

/-- Whether a publication goes through the broker. -/
def asksBroker (n : Node) (topic : String) (protocols : ProtocolSet) : Bool :=
  protocols.contains .broker && (n.table.lookup topic).any fun r => r.protocol == .broker

/-- The routes that a publication is sent along directly. -/
def directRoutes (n : Node) (topic : String) (protocols : ProtocolSet) : List (RouteEntry Nat) :=
  (n.table.lookup topic).filter fun r =>
    protocols.contains r.protocol ∧ r.protocol ≠ .broker ∧ r.protocol ≠ .peerRtc ∧
      r.protocol ∈ n.config.transports

/-- The places of the routes that a publication is sent along in sessions. -/
def peerPlaces (n : Node) (topic : String) (protocols : ProtocolSet) : List Place :=
  if protocols.contains .peerRtc then
    ((n.table.lookup topic).filter fun r => r.protocol = .peerRtc).map (RouteEntry.place topic)
  else []

/-- The node with other lodging. -/
def withLodging (n : Node) (l : Lodging) : Node :=
  { n with table := l.table, sessions := l.sessions, nextSession := l.nextSession }

end Node

namespace Station

open Node Act

/-- Why a message does not reach the broker. -/
def brokerFault (s : Station) : Option Error :=
  (s.outage.line .publish).or (if s.isConnected then none else some .notConnected)

/-- Why a payload is not put on the wire. -/
def wireFault (s : Station) (topic : String) (payload : Bytes) (r : RouteEntry Nat) : Option Error :=
  if s.network.usesSockets r.protocol then
    match Wire.onWire r.protocol topic payload with
    | .ok _ => none
    | .error e => some e
  else none

/-- Why a payload does not get along a route. -/
def sendFault (s : Station) (topic : String) (payload : Bytes) (r : RouteEntry Nat) : Option Error :=
  (s.wireFault topic payload r).or (s.outage.send r.protocol r.host r.port)

/-- The call that sends a payload along a route, unless it does not get on the wire. -/
def call? (s : Station) (topic : String) (payload : Bytes) (r : RouteEntry Nat) : Option DirectCall :=
  if (s.wireFault topic payload r).isSome then none
  else some (.send s.node.id r.protocol r.host r.port topic payload)

/-- What arrives of a payload along a route: nothing if the sending fails or nobody listens. -/
def arrival? (s : Station) (topic : String) (payload : Bytes) (r : RouteEntry Nat) : Option Arrival :=
  if (s.sendFault topic payload r).isSome || !s.network.reaches r.protocol r.port then none
  else (s.network.listeners.get? r.port).map fun l => ⟨l.node, topic, payload, l.protocol⟩

/-- The report of a payload that does not get along a route. -/
def failure? (s : Station) (topic : String) (payload : Bytes) (r : RouteEntry Nat) :
    Option NodeEvent :=
  (s.sendFault topic payload r).map fun e =>
    .transportFailure topic s!"{r.host}:{r.port}" r.protocol e.message

/-- The report of a message that does not reach the broker. -/
def brokerFailure? (s : Station) (topic : String) : Option NodeEvent :=
  s.brokerFault.map fun e => .transportFailure topic "broker" .broker e.message

theorem post_eq (s : Station) (m : Message) :
    post m s =
      match s.brokerFault with
      | none => .ok () { s with hub := s.hub.publish m }
      | some e => .error e s := by
  unfold brokerFault post onLine Line.publish Line.ifConnected
  cases s.outage.line .publish with
  | some e => rfl
  | none =>
    rw [Option.none_or, isConnected]
    dsimp only
    cases s.node.line.isConnected s.hub <;> rfl

theorem publishBroker_ok (topic : String) (payload : Bytes) (routes : List (RouteEntry Nat))
    (qos : QoS) (retain : Bool) (s : Station) :
    publishBroker topic payload routes qos retain s = .ok ()
      (if routes.any fun r => r.protocol == .broker then
        { s with
          node := { s.node with events := s.node.events ++ (s.brokerFailure? topic).toList }
          hub := if s.brokerFault.isNone then s.hub.publish (.plain topic payload qos retain)
            else s.hub }
      else s) := by
  unfold publishBroker
  split
  · unfold orReport brokerFailure?
    rw [post_eq]
    cases s.brokerFault with
    | none =>
      dsimp only [Option.map_none, Option.toList_none, Option.isNone_none]
      rw [List.append_nil]
      rfl
    | some e => rfl
  · rfl

/-! ### Along the direct routes -/

/-- The station after a payload was sent along some routes. -/
def sent (topic : String) (payload : Bytes) (s : Station) (routes : List (RouteEntry Nat)) :
    Station :=
  { s with
    node := { s.node with events := s.node.events ++ routes.filterMap (s.failure? topic payload) }
    network :=
      { s.network with
        calls := s.network.calls ++ routes.filterMap (s.call? topic payload)
        arrivals := s.network.arrivals ++ routes.filterMap (s.arrival? topic payload) } }

theorem sent_nil (topic : String) (payload : Bytes) (s : Station) : s.sent topic payload [] = s := by
  unfold sent
  rw [List.filterMap_nil, List.filterMap_nil, List.filterMap_nil, List.append_nil, List.append_nil,
    List.append_nil]

theorem sent_cons (topic : String) (payload : Bytes) (s : Station) (r : RouteEntry Nat)
    (rest : List (RouteEntry Nat)) :
    s.sent topic payload (r :: rest) = (s.sent topic payload [r]).sent topic payload rest := by
  have split : ∀ {β : Type} (f : RouteEntry Nat → Option β),
      (r :: rest).filterMap f = [r].filterMap f ++ rest.filterMap f := fun f =>
    List.filterMap_append (l := [r])
  unfold sent
  rw [split, split, split, ← List.append_assoc, ← List.append_assoc, ← List.append_assoc]
  rfl

theorem checkFits_eq (topic : String) (payload : Bytes) (r : RouteEntry Nat) (s : Station) :
    checkFits r.protocol topic payload s =
      match s.wireFault topic payload r with
      | none => .ok () s
      | some e => .error e s := by
  show (if s.network.usesSockets r.protocol then _ else _ : Act Unit) s = _
  unfold wireFault
  split
  · cases Wire.onWire r.protocol topic payload <;> rfl
  · rfl

theorem send_eq (topic : String) (payload : Bytes) (r : RouteEntry Nat) (s : Station) :
    Act.send r.protocol r.host r.port topic payload s =
      let network :=
        { s.network with
          calls := s.network.calls ++ (s.call? topic payload r).toList
          arrivals := s.network.arrivals ++ (s.arrival? topic payload r).toList }
      match s.sendFault topic payload r with
      | none => .ok () { s with network := network }
      | some e => .error e { s with network := network } := by
  have fits := checkFits_eq topic payload r s
  unfold call? arrival? sendFault
  cases wire : s.wireFault topic payload r with
  | some e =>
    rw [wire] at fits
    refine (bind_error fits).trans ?_
    simp
  | none =>
    rw [wire] at fits
    refine (bind_ok fits).trans ?_
    dsimp only
    rw [Option.none_or]
    cases s.outage.send r.protocol r.host r.port with
    | some e => simp [DirectNetwork.record]
    | none =>
      unfold DirectNetwork.carry DirectNetwork.arrive
      have reaches : ∀ call, (s.network.record call).reaches r.protocol r.port =
          s.network.reaches r.protocol r.port := fun _ => rfl
      rw [reaches]
      cases s.network.reaches r.protocol r.port with
      | false => simp [DirectNetwork.record]
      | true =>
        simp only [DirectNetwork.record, if_true]
        cases s.network.listeners.get? r.port <;> simp

theorem sendAlong_ok (topic : String) (payload : Bytes) (r : RouteEntry Nat) (s : Station) :
    sendAlong topic payload r s = .ok () (s.sent topic payload [r]) := by
  have one : ∀ {β : Type} (f : RouteEntry Nat → Option β), [r].filterMap f = (f r).toList := by
    intro β f
    cases is : f r <;> simp [is]
  unfold sendAlong orReport sent
  rw [send_eq, one, one, one, failure?]
  cases s.sendFault topic payload r with
  | some e => rfl
  | none =>
    dsimp only [Option.map_none, Option.toList_none]
    rw [List.append_nil]

/-- The direct routes are served whether or not some of them fail. -/
theorem publishDirect_ok (topic : String) (payload : Bytes) (protocols : ProtocolSet)
    (routes : List (RouteEntry Nat)) (s : Station) :
    publishDirect topic payload protocols routes s = .ok () (s.sent topic payload
      (routes.filter fun r => r.protocol ≠ .broker ∧ protocols.contains r.protocol ∧
        r.protocol ∈ s.node.config.transports)) := by
  induction routes generalizing s with
  | nil => exact congrArg (EStateM.Result.ok ()) (s.sent_nil topic payload).symm
  | cons r rest ih =>
    unfold publishDirect
    rw [bind_ok (node_eq s), List.filter_cons]
    by_cases wanted : r.protocol ≠ .broker ∧ protocols.contains r.protocol = true ∧
        r.protocol ∈ s.node.config.transports
    · rw [if_pos wanted, if_pos (decide_eq_true wanted), sent_cons, bind_ok (sendAlong_ok ..)]
      exact ih (s.sent topic payload [r])
    · rw [if_neg wanted, if_neg (by simpa using wanted)]
      exact ih s

/-! ### In sessions -/

/-- The session for a route in the table is the open one that it holds, or a new one. -/
theorem sessionFor_ok {topic : String} {r : RouteEntry Nat} {s : Station}
    (there : s.node.table.at? (r.place topic) ≠ none) :
    (∃ session, s.node.lodging.open? (r.place topic) = some session ∧
      sessionFor topic r s = .ok (some session) s) ∨
    (s.node.lodging.open? (r.place topic) = none ∧
      sessionFor topic r s = .ok (some s.node.nextSession)
        { s with node := s.node.withLodging (s.node.lodging.opened (r.place topic)) }) := by
  have known : s.node.lodging.table.holder? (r.place topic) = s.node.table.holder? (r.place topic) :=
    rfl
  unfold Lodging.open?
  rw [known]
  rcases s.node.table.sessionOrInsert_cases s.node.hasClosed (r.place topic) s.node.nextSession with
    ⟨absent, -⟩ | ⟨session, held, alive, is⟩ | ⟨-, vacant, is⟩
  · exact absurd absent there
  · change s.node.table.sessionOrInsert s.node.hasClosed topic r.host r.port _ = _ at is
    refine .inl ⟨session, ?_, (bind_ok (node_eq s)).trans ?_⟩
    · rw [held, Option.filter_some, show s.node.lodging.hasClosed session = false from alive]
      rfl
    · dsimp only
      rw [is]
      rfl
  · change s.node.table.sessionOrInsert s.node.hasClosed topic r.host r.port _ = _ at is
    refine .inr ⟨?_, (bind_ok (node_eq s)).trans ?_⟩
    · cases held : s.node.table.holder? (r.place topic) with
      | none => rfl
      | some session =>
        rw [held] at vacant
        rw [Option.filter_some, show s.node.lodging.hasClosed session = true from vacant]
        rfl
    · dsimp only
      rw [is]
      rfl

theorem give_ok {session : Nat} {s : Station} (open_ : s.node.hasClosed session = false) (f : Frame) :
    give session f s = .ok () { s with node := s.node.withLodging (s.node.lodging.given f session) } := by
  unfold give
  rw [changeNode_eq, open_]
  rfl

/-- One frame goes along a route. -/
theorem serve_ok {topic : String} {r : RouteEntry Nat} {s : Station}
    (there : s.node.table.at? (r.place topic) ≠ none) (f : Frame) :
    ∃ session t, sessionFor topic r s = .ok (some session) t ∧ t.node.config = s.node.config ∧
      give session f t =
        .ok () { s with node := s.node.withLodging (s.node.lodging.serve f (r.place topic)) } := by
  unfold Lodging.serve
  rcases sessionFor_ok there with ⟨session, held, finds⟩ | ⟨vacant, finds⟩
  · have alive := (Option.filter_eq_some_iff.1 held).2
    rw [held]
    exact ⟨session, s, finds, rfl, give_ok (Bool.not_eq_true' _ ▸ alive) f⟩
  · rw [vacant]
    refine ⟨_, _, finds, rfl, give_ok ?_ f⟩
    show (match (s.node.sessions.insert s.node.nextSession _).get? s.node.nextSession with
      | some s => s.closed | none => true) = false
    rw [KeyMap.get?_insert, if_pos rfl]
    rfl

theorem publishPeers_ok (topic : String) (payload : Bytes) (routes : List (RouteEntry Nat))
    (s : Station) (there : ∀ r ∈ routes, s.node.table.at? (r.place topic) ≠ none) :
    publishPeers topic payload routes s = .ok ()
      { s with
        node := s.node.withLodging
          (((routes.filter fun r => r.protocol = .peerRtc).map (RouteEntry.place topic)).foldl
            (Lodging.serve ⟨frameShape s.node.config topic, payload⟩) s.node.lodging) } := by
  induction routes generalizing s with
  | nil => rfl
  | cons r rest ih =>
    have others := fun q hq => there q (List.mem_cons_of_mem r hq)
    unfold publishPeers
    rw [List.filter_cons]
    by_cases peer : r.protocol = .peerRtc
    · obtain ⟨session, t, finds, config, gives⟩ := serve_ok (there r List.mem_cons_self)
        ⟨frameShape s.node.config topic, payload⟩
      rw [if_pos peer, if_pos (decide_eq_true peer), List.map_cons, List.foldl_cons, bind_ok finds]
      dsimp only
      rw [bind_ok (node_eq t), config, bind_ok gives]
      refine ih _ fun q hq => ?_
      -- a route that a frame went along is still there
      show (s.node.lodging.serve _ (r.place topic)).table.at? (q.place topic) ≠ none
      rw [Lodging.at?_serve]
      split
      · exact fun gone => there r List.mem_cons_self (Option.map_eq_none_iff.1 gone)
      · exact others q hq
    · rw [if_neg peer, if_neg (by simpa using peer)]
      exact ih s others

/-! ### Together -/

variable {s : Station} {topic : String}

theorem at?_place (housed : s.node.lodging.Housed) {r : RouteEntry Nat}
    (listed : r ∈ s.node.table.lookup topic) : s.node.table.at? (r.place topic) = some r :=
  housed.labelled.route?_of_mem_lookup listed

/-- The station after a message was handed to the broker, or has failed to be. -/
def told (topic : String) (payload : Bytes) (qos : QoS) (retain : Bool) (asked : Bool) (s : Station) :
    Station :=
  { s with
    node := { s.node with
      events := s.node.events ++ if asked then (s.brokerFailure? topic).toList else [] }
    hub := if asked && s.brokerFault.isNone then s.hub.publish (.plain topic payload qos retain)
      else s.hub }

/-- The station after a publication, for which the broker was asked or not. -/
def published (topic : String) (payload : Bytes) (protocols : ProtocolSet) (qos : QoS)
    (retain asked : Bool) (s : Station) : Station :=
  let t := (s.told topic payload qos retain asked).sent topic payload
    (s.node.directRoutes topic protocols)
  { t with
    node := t.node.withLodging ((s.node.peerPlaces topic protocols).foldl
      (Lodging.serve ⟨frameShape s.node.config topic, payload⟩) s.node.lodging) }

theorem told_false (payload : Bytes) (qos : QoS) (retain : Bool) :
    s.told topic payload qos retain false = s := by
  unfold told
  dsimp only
  rw [if_neg Bool.false_ne_true, List.append_nil]
  rfl

theorem publishBroker_told (payload : Bytes) (routes : List (RouteEntry Nat)) (qos : QoS)
    (retain : Bool) :
    publishBroker topic payload routes qos retain s =
      .ok () (s.told topic payload qos retain (routes.any fun r => r.protocol == .broker)) := by
  rw [publishBroker_ok]
  cases routes.any fun r => r.protocol == .broker with
  | true => rfl
  | false =>
    rw [told_false]
    rfl

/-- What follows the broker's part of a publication. -/
def publishElsewhere (topic : String) (payload : Bytes) (protocols : ProtocolSet)
    (routes : List (RouteEntry Nat)) : Act Unit :=
  publishDirect topic payload protocols.split.1 routes >>= fun _ =>
    if protocols.split.2.contains .peerRtc then publishPeers topic payload routes else pure ()

/-- After the broker was asked the payload is sent along the other routes. -/
theorem publishElsewhere_ok (housed : s.node.lodging.Housed) (payload : Bytes)
    (protocols : ProtocolSet) (qos : QoS) (retain asked : Bool) :
    publishElsewhere topic payload protocols (s.node.table.lookup topic)
        (s.told topic payload qos retain asked) =
      .ok () (s.published topic payload protocols qos retain asked) := by
  have direct : ((s.node.table.lookup topic).filter fun r => r.protocol ≠ .broker ∧
      protocols.split.1.contains r.protocol ∧ r.protocol ∈ s.node.config.transports) =
        s.node.directRoutes topic protocols := by
    refine List.filter_congr fun r _ => decide_eq_decide.2 ?_
    rw [ProtocolSet.contains_split_direct]
    tauto
  have sends := publishDirect_ok topic payload protocols.split.1 (s.node.table.lookup topic)
    (s.told topic payload qos retain asked)
  rw [show (s.told topic payload qos retain asked).node.config = s.node.config from rfl,
    direct] at sends
  unfold publishElsewhere published peerPlaces
  rw [bind_ok sends, ProtocolSet.contains_split_oriented]
  split
  · exact publishPeers_ok topic payload _ _ fun r hr =>
      (at?_place housed hr).symm ▸ Option.some_ne_none r
  · rfl

/-- **What a publication comes to**: the broker is asked, and then the other routes are
served, whatever the broker said. -/
theorem publish_run (named : topic ≠ "") (payload : Bytes) {protocols : ProtocolSet}
    (wanted : protocols.isEmpty = false) (qos : QoS) (retain : Bool) :
    publish topic payload protocols qos retain s =
      publishElsewhere topic payload protocols (s.node.table.lookup topic)
        (s.told topic payload qos retain (s.node.asksBroker topic protocols)) := by
  have broker : protocols.split.1.contains .broker = protocols.contains .broker := by
    rw [Bool.eq_iff_iff, ProtocolSet.contains_split_direct]
    exact and_iff_left nofun
  unfold publish asksBroker
  rw [bind_ok (checkTopic_ok named), bind_ok (checkProtocols_ok wanted), bind_ok (node_eq s)]
  dsimp only
  rw [broker]
  cases protocols.contains .broker with
  | true =>
    rw [if_pos rfl, bind_ok (publishBroker_told ..)]
    rfl
  | false =>
    rw [if_neg Bool.false_ne_true, Bool.false_and, told_false]
    rfl

theorem publish_ok (housed : s.node.lodging.Housed) (named : topic ≠ "") (payload : Bytes)
    {protocols : ProtocolSet} (wanted : protocols.isEmpty = false) (qos : QoS) (retain : Bool) :
    publish topic payload protocols qos retain s =
      .ok () (s.published topic payload protocols qos retain
        (s.node.asksBroker topic protocols)) :=
  (publish_run named payload wanted qos retain).trans (publishElsewhere_ok housed ..)

theorem publish_empty (payload : Bytes) (protocols : ProtocolSet) (qos : QoS) (retain : Bool) :
    publish "" payload protocols qos retain s = .error (.invalidArgument "empty topic") s :=
  bind_error checkTopic_empty

theorem publish_unwanted (named : topic ≠ "") (payload : Bytes) {protocols : ProtocolSet}
    (none : protocols.isEmpty = true) (qos : QoS) (retain : Bool) :
    publish topic payload protocols qos retain s =
      .error (.invalidArgument "empty protocol set") s :=
  (bind_ok (checkTopic_ok named)).trans (bind_error (checkProtocols_empty none))

end Station

end TopicMesh
