import TopicMesh.Proofs.Node.Hearing
import TopicMesh.Proofs.Node.Serving
import TopicMesh.Proofs.RouteTable.Sessions

/-!
# The sessions of a node stand on its routes

An act **keeps** a property of stations (`Act.Keeps`) if it holds after the act, failing
or not, whenever it held before.  Sequences keep what their acts keep.

What a node knows of routes and sessions is its **lodging**.  Most acts do not touch it,
and so keep whatever depends on it alone.  It is in order (`Housed`) if every session
that a route holds was made for that route, and no number of a session is given out
again; announcements, departures and the ends of sessions keep it so.
-/

namespace TopicMesh

namespace Act

variable {α β : Type} {P : Station → Prop}

/-- Whether a property that holds before an act holds after it, failing or not. -/
def Keeps (P : Station → Prop) (act : Act α) : Prop :=
  ∀ s, P s → P (after act s)

theorem keeps_pure (a : α) : Keeps P (pure a) := fun _ h => h

theorem keeps_throw (e : Error) : Keeps P (throw e : Act α) := fun _ h => h

theorem keeps_node : Keeps P Act.node := fun _ h => h

theorem keeps_isConnected : Keeps P isConnected := fun _ h => h

theorem Keeps.bind {act : Act α} {f : α → Act β} (first : Keeps P act)
    (others : ∀ a, Keeps P (f a)) : Keeps P (act >>= f) := by
  intro s h
  have between := first s h
  cases run : act s with
  | ok a t =>
    rw [after_ok run] at between
    rw [after_bind_ok run]
    exact others a t between
  | error e t =>
    rw [after_error run] at between
    rw [after_bind_error run]
    exact between

theorem Keeps.ite {c : Prop} [Decidable c] {act act' : Act α} (yes : Keeps P act)
    (no : Keeps P act') : Keeps P (if c then act else act') := by
  split
  · exact yes
  · exact no

theorem Keeps.attempt {act : Act Unit} (keeps : Keeps P act) : Keeps P (attempt act) :=
  fun s h => after_attempt act s ▸ keeps s h

theorem keeps_changeNode {f : Node → Node} (h : ∀ s, P s → P { s with node := f s.node }) :
    Keeps P (changeNode f) := h

theorem keeps_encoded (e : Except Announcement.EncodeFault α) : Keeps P (encoded e) := by
  cases e with
  | ok a => exact keeps_pure a
  | error e => exact keeps_throw e.toError

end Act

/-- The routes that a node knows, and the sessions on them. -/
structure Lodging where
  table : RouteTable Nat
  sessions : KeyMap Nat PeerSession
  nextSession : Nat

/-- What a node knows of routes and sessions. -/
def Node.lodging (n : Node) : Lodging :=
  ⟨n.table, n.sessions, n.nextSession⟩

/-- The place that a session was made for. -/
def PeerSession.place (s : PeerSession) : Place :=
  ⟨s.topic, s.host, s.port⟩

namespace Lodging

/-- The place that a session was made for, if it is known. -/
def home? (l : Lodging) (session : Nat) : Option Place :=
  (l.sessions.get? session).map PeerSession.place

/-- **Whether the sessions are in order.** -/
structure Housed (l : Lodging) : Prop where
  labelled : l.table.Labelled
  /-- A session that a route holds was made for it. -/
  home : ∀ p session, l.table.holder? p = some session → l.home? session = some p
  /-- The number of a session is not given out again. -/
  numbered : ∀ session p, l.home? session = some p → session < l.nextSession

end Lodging

namespace Node

open Act

/-! ## Acts that do not touch the lodging -/

section Elsewhere

variable {P : Station → Prop}
  (blind : ∀ s s' : Station, s'.node.lodging = s.node.lodging → P s → P s')

include blind

theorem keeps_onLine (call : LineCall) (f : Line → Hub → Except Error (Line × Hub)) :
    Keeps P (onLine call f) := by
  intro s h
  unfold after onLine
  cases s.outage.line call with
  | some e => exact h
  | none =>
    dsimp only
    cases f s.node.line s.hub with
    | ok result => exact blind s _ rfl h
    | error e => exact h

theorem keeps_listen (protocol : Protocol) (topic : String) : Keeps P (listen protocol topic) := by
  intro s h
  unfold after Act.listen
  cases s.outage.listen protocol with
  | some e => exact h
  | none => exact blind s _ rfl h

theorem keeps_unlisten (protocol : Protocol) (port : UInt16) : Keeps P (unlisten protocol port) :=
  fun s h => blind s _ rfl h

theorem keeps_announce : Keeps P announce :=
  keeps_node.bind fun _ => (keeps_encoded _).bind fun _ => keeps_onLine blind _ _

theorem keeps_startDiscovery : Keeps P startDiscovery :=
  keeps_node.bind fun _ => (keeps_onLine blind _ _).bind fun _ =>
    .ite (keeps_pure ()) (keeps_announce blind)

theorem keeps_advertise (topic : String) (c : Capability) : Keeps P (advertise topic c) :=
  (keeps_changeNode fun s h => blind s _ rfl h).bind fun _ => keeps_announce blind

theorem keeps_withdraw (topic : String) : Keeps P (withdraw topic) :=
  keeps_node.bind fun _ => .ite
    ((keeps_changeNode fun s h => blind s _ rfl h).bind fun _ => keeps_announce blind)
    (keeps_pure ())

theorem keeps_announceDeparture : Keeps P announceDeparture :=
  (keeps_changeNode fun s h => blind s _ rfl h).bind fun _ =>
    keeps_node.bind fun _ => (keeps_encoded _).bind fun _ => keeps_onLine blind _ _

theorem keeps_teardown (topic : String) (e : Endpoint) : Keeps P (teardown topic e) := by
  cases e with
  | broker =>
    exact keeps_isConnected.bind fun _ => .ite (keeps_onLine blind _ _).attempt (keeps_pure ())
  | direct protocol port =>
    exact keeps_node.bind fun _ => .ite (keeps_unlisten blind protocol port) (keeps_pure ())
  | peer port => exact keeps_unlisten blind .peerRtc port

theorem keeps_openEndpoint (topic : String) (protocol : Protocol) (qos : QoS) :
    Keeps P (openEndpoint topic protocol qos) := by
  by_cases broker : protocol = .broker
  · subst broker
    exact (keeps_onLine blind _ _).bind fun _ => keeps_pure _
  by_cases peer : protocol = .peerRtc
  · subst peer
    exact (keeps_listen blind _ _).bind fun _ => keeps_pure _
  rw [openEndpoint_direct broker peer]
  exact keeps_node.bind fun _ => .ite
    ((keeps_listen blind _ _).bind fun _ => keeps_pure _) (keeps_throw _)

theorem keeps_findRecord (topic : String) (callback : Callback) :
    Keeps P (findRecord topic callback) := by
  refine keeps_node.bind fun n => ?_
  rcases n.subscriptions.join topic callback with ⟨subscriptions, record⟩
  cases record with
  | some record => exact (keeps_changeNode fun s h => blind s _ rfl h).bind fun _ => keeps_pure _
  | none => exact keeps_isConnected.bind fun _ => .ite (keeps_pure _) (keeps_throw _)

theorem keeps_offer (topic : String) (callback : Callback) (e : Endpoint) (qos : QoS)
    (advertised : Bool) : Keeps P (offer topic callback e qos advertised) :=
  keeps_node.bind fun _ =>
    (keeps_changeNode fun s h => blind s _ rfl h).bind fun _ => keeps_pure _

theorem keeps_removeRecord (topic : String) : Keeps P (removeRecord topic) :=
  keeps_node.bind fun _ =>
    (keeps_changeNode fun s h => blind s _ rfl h).bind fun _ => keeps_pure _

theorem keeps_undo (topic : String) (e : Error) : Keeps P (undo topic e) := by
  refine (keeps_removeRecord blind topic).bind fun record => ?_
  cases record with
  | some record => exact (keeps_teardown blind topic record.endpoint).bind fun _ => keeps_throw e
  | none => exact (keeps_pure ()).bind fun _ => keeps_throw e

theorem keeps_conclude (topic : String) (protocol : Protocol) (port : UInt16) (advertised : Bool)
    (insertion : Insertion) : Keeps P (conclude topic protocol port advertised insertion) := by
  cases insertion with
  | merged unused => exact keeps_teardown blind topic unused
  | inserted =>
    cases advertised with
    | false => exact keeps_pure ()
    | true =>
      intro s h
      have advertises := keeps_advertise blind topic ⟨protocol, port⟩ s h
      cases run : advertise topic ⟨protocol, port⟩ s with
      | ok a t =>
        rw [after_ok run] at advertises
        rw [after_ok (conclude_advertised run)]
        exact advertises
      | error e t =>
        rw [after_error run] at advertises
        rw [after_congr (conclude_unadvertised run)]
        exact keeps_undo blind topic e t advertises

theorem keeps_subscribeWith (topic : String) (callback : Callback) (protocol : Protocol) (qos : QoS)
    (advertised : Bool) : Keeps P (subscribeWith topic callback protocol qos advertised) :=
  (keeps_findRecord blind topic callback).bind fun _ => .ite (keeps_pure ())
    ((keeps_openEndpoint blind topic protocol qos).bind fun _ =>
      (keeps_offer blind _ _ _ _ _).bind fun _ => keeps_conclude blind _ _ _ _ _)

theorem keeps_endSubscription (topic : String) : Keeps P (endSubscription topic) := by
  refine (keeps_removeRecord blind topic).bind fun record => ?_
  cases record with
  | none => exact keeps_pure ()
  | some record =>
    exact (keeps_teardown blind topic record.endpoint).bind fun _ =>
      .ite (keeps_withdraw blind topic) (keeps_pure ())

theorem keeps_doChores (topics : List String) : Keeps P (doChores topics) := by
  induction topics with
  | nil => exact keeps_pure ()
  | cons topic rest ih => exact (keeps_endSubscription blind topic).attempt.bind fun _ => ih

theorem keeps_ask (answers : String) (m : Message) : Keeps P (Station.ask answers m) := by
  intro s h
  have posts : P (after (post m) s) := keeps_onLine blind .publish _ s h
  cases run : post m s with
  | ok a t =>
    rw [after_ok run] at posts
    rw [after_ok (Station.ask_posted run)]
    exact posts
  | error e t =>
    rw [after_error run] at posts
    rw [Station.after_ask_unposted run]
    exact keeps_endSubscription blind answers t posts

theorem keeps_renew (topics : List (String × QoS)) : Keeps P (renew topics) := by
  induction topics with
  | nil => exact keeps_pure ()
  | cons t rest ih => exact (keeps_onLine blind _ _).bind fun _ => ih

theorem keeps_teardownAll (records : List (String × Subscription Callback)) :
    Keeps P (teardownAll records) := by
  induction records with
  | nil => exact keeps_pure ()
  | cons r rest ih => exact (keeps_teardown blind r.1 r.2.endpoint).bind fun _ => ih

end Elsewhere

end Node

/-! ## Acts that keep it in order -/

namespace RouteTable

variable {t t' : RouteTable Nat}

/-- Whether a table puts no session where another one has none, and its routes are
labelled if those of the other one are. -/
structure Narrows (t t' : RouteTable Nat) : Prop where
  labelled : t.Labelled → t'.Labelled
  holder : ∀ p session, t'.holder? p = some session → t.holder? p = some session

theorem Narrows.refl (t : RouteTable Nat) : t.Narrows t := ⟨id, fun _ _ held => held⟩

theorem Narrows.trans {t'' : RouteTable Nat} (first : t.Narrows t') (second : t'.Narrows t'') :
    t.Narrows t'' :=
  ⟨second.labelled ∘ first.labelled,
    fun p session held => first.holder p session (second.holder p session held)⟩

theorem narrows_edited (t : RouteTable Nat) (e : Edit) : t.Narrows (t.edited e).1 :=
  ⟨fun labelled => labelled.edited e, fun _ _ held => t.holder?_edited held⟩

theorem narrows_runAll (ops : List TableOp) (t : RouteTable Nat) :
    t.Narrows (TableOp.runAll t ops).1 := by
  have one : ∀ (t : RouteTable Nat) (op : TableOp), t.Narrows (op.run t).1 := by
    intro t op
    cases op with
    | removeHost host => exact t.narrows_edited (.removeHost host)
    | apply host updates => exact t.narrows_edited (.apply host updates)
    | retire host names => exact t.narrows_edited (.retire host names)
  induction ops generalizing t with
  | nil => exact .refl t
  | cons op rest ih => exact (one t op).trans (ih (op.run t).1)

theorem narrows_detach (t : RouteTable Nat) (p : Place) (session : Nat) :
    t.Narrows (t.detach p.topic p.host p.port session).1 := by
  rcases t.detach_cases p session with ⟨-, is⟩ | ⟨-, is⟩
  · rw [is]
    refine ⟨fun labelled => labelled.assign p none, fun q s held => ?_⟩
    unfold holder? at held
    rw [at?_change] at held
    split at held
    · -- the place is vacant now
      cases h : t.at? p <;> rw [h] at held <;> cases held
    · exact held
  · rw [is]
    exact .refl t

end RouteTable

namespace Lodging

variable {l l' : Lodging}

theorem Housed.narrow (housed : l.Housed) (narrows : l.table.Narrows l'.table)
    (homes : ∀ session, l'.home? session = l.home? session)
    (next : l'.nextSession = l.nextSession) : l'.Housed where
  labelled := narrows.labelled housed.labelled
  home p session held := by
    rw [homes]
    exact housed.home p session (narrows.holder p session held)
  numbered session p known := by
    rw [next]
    exact housed.numbered session p (homes session ▸ known)

/-- Work on a session that leaves it where it was made. -/
theorem home?_modify (l : Lodging) (session other : Nat) {f : PeerSession → PeerSession}
    (stays : ∀ s, (f s).place = s.place) :
    home? { l with sessions := l.sessions.modify session f } other = l.home? other := by
  unfold home?
  rw [KeyMap.get?_modify]
  split
  · rw [Option.map_map]
    exact congrArg (Option.map · _) (funext stays)
  · rfl

end Lodging

namespace Node

open Act

variable {n : Node}

theorem home?_closeSessions (n : Node) (sessions : List Nat) (session : Nat) :
    (n.closeSessions sessions).lodging.home? session = n.lodging.home? session := by
  have closes : ∀ known : KeyMap Nat PeerSession,
      Lodging.home? ⟨n.table, sessions.foldl
        (fun known s => known.modify s fun p => { p with closing := true }) known,
        n.nextSession⟩ session = Lodging.home? ⟨n.table, known, n.nextSession⟩ session := by
    induction sessions with
    | nil => exact fun _ => rfl
    | cons s rest ih =>
      intro known
      rw [List.foldl_cons, ih]
      exact Lodging.home?_modify ⟨n.table, known, n.nextSession⟩ s session fun _ => rfl
  exact closes n.sessions

/-- A node whose table only loses sessions, which it may ask to close. -/
theorem housed_closeSessions (housed : n.lodging.Housed) {table : RouteTable Nat}
    (narrows : n.table.Narrows table) (discovery : Discovery) (sessions : List Nat) :
    ({ n with discovery := discovery, table := table }.closeSessions sessions).lodging.Housed :=
  housed.narrow narrows (fun session => home?_closeSessions
    { n with discovery := discovery, table := table } sessions session) rfl

theorem housed_forgetTopic (housed : n.lodging.Housed) (topic : String) :
    (n.forgetTopic topic).lodging.Housed :=
  housed_closeSessions housed (n.table.narrows_edited (.forgetTopic topic)) n.discovery _

theorem housed_onFrame (housed : n.lodging.Housed) (frame : ServerFrame) :
    (n.onFrame frame).lodging.Housed := by
  cases frame with
  | accepted client => exact housed
  | refused reason => exact housed
  | deliver m =>
    show (n.onMessage m).lodging.Housed
    unfold onMessage
    split
    · unfold hear handleAnnouncement Discovery.handle
      cases n.discovery.operations n.config.discovery m.topic m.payload with
      | error e => exact housed
      | ok result =>
        exact housed_closeSessions housed (RouteTable.narrows_runAll result.2 n.table) result.1 _
    · obtain ⟨finished, chores, invoked, is⟩ := n.deliver_eq (.ofMessage m)
      rw [is]
      exact housed

theorem lodging_onOccurrence (n : Node) (topic peer : String) (o : Session.Occurrence) :
    (n.onOccurrence topic peer o).lodging = n.lodging := by
  unfold onOccurrence
  split
  · rfl
  · split <;> rfl
  · next f =>
    obtain ⟨finished, chores, invoked, is⟩ := n.deliver_eq (.ofFrame topic f)
    rw [is]
    rfl
  · rfl

theorem housed_onSessionEnd (housed : n.lodging.Housed) (session : Nat) :
    (n.onSessionEnd session).lodging.Housed := by
  unfold onSessionEnd
  cases found : n.sessions.get? session with
  | none => exact housed
  | some s =>
    refine housed.narrow (n.table.narrows_detach s.place session) (fun other => ?_) rfl
    show ((n.sessions.insert session { s with closed := true }).get? other).map _ = _
    rw [KeyMap.get?_insert]
    split
    · next same => rw [← same, Lodging.home?, show n.lodging.sessions.get? session = some s from found]; rfl
    · rfl

theorem housed_failSession (housed : n.lodging.Housed) (session : Nat) (reason : String) :
    (n.failSession session reason).lodging.Housed := by
  unfold failSession
  cases n.sessions.get? session with
  | none => exact housed
  | some s =>
    dsimp only
    split
    · exact housed
    · exact housed_onSessionEnd (lodging_onOccurrence n s.topic s.peer (.closed (.failed reason)) ▸ housed) session

end Node

end TopicMesh
