import Mathlib.Logic.Function.Basic
import TopicMesh.Proofs.Node.Enrolment

/-!
# Subscribers of one topic at once

Between the steps of a subscription other calls may run.  Here several calls subscribe
one topic over the broker, in any order of their steps (`Crowd.run`); a call by itself
takes just the steps of `subscribe` (`subscribe_eq_steps`).

Callers that have looked before there was a record all open an endpoint, and they share
one subscription at the broker.  The first to offer its record keeps it; each other one
joins, and closes the endpoint that it does not need, which is the one in use.

When all calls have returned, the topic has one record with every callback once.  **The
broker still lists the node just if no call was merged into the record of another**
(`listed_iff_unmerged`).
-/

namespace TopicMesh.Node

open Act Station

/-! ## Calls in steps -/

/-- What a caller asks for. -/
structure Wish where
  callback : Callback
  protocols : ProtocolSet
  qos : QoS

/-- How far a subscription has come. -/
inductive Progress
  | called
  /-- No record was found. -/
  | sought (protocol : Protocol)
  | opened (protocol : Protocol) (endpoint : Endpoint)
  | offered (protocol : Protocol) (endpoint : Endpoint) (insertion : Insertion)
  /-- The call has returned; also what became of its offer, if it made one. -/
  | returned (insertion : Option Insertion)
  | failed (e : Error)
deriving DecidableEq

namespace Progress

/-- The first step of a subscription: its arguments are checked, and the callback joins
the topic's record if there is one. -/
def look (topic : String) (w : Wish) : Act Progress := do
  checkTopic topic
  checkProtocols w.protocols
  let n ← node
  if isReserved n.config.discovery topic then
    throw (.invalidArgument s!"'{topic}' is reserved for discovery")
  else
    match preference.find? w.protocols.contains with
    | none => throw (.invalidArgument "no transport serves the requested protocols")
    | some protocol =>
      if ← findRecord topic w.callback then pure (returned none) else pure (sought protocol)

/-- The next step of a subscription. -/
def next (topic : String) (w : Wish) : Progress → Act Progress
  | called => look topic w
  | sought protocol => do
    let endpoint ← openEndpoint topic protocol w.qos
    pure (opened protocol endpoint)
  | opened protocol endpoint => do
    let insertion ← offer topic w.callback endpoint w.qos true
    pure (offered protocol endpoint insertion)
  | offered protocol endpoint insertion => do
    conclude topic protocol endpoint.port true insertion
    pure (returned (some insertion))
  | ended => pure ended

/-- What is left to do for a call that has looked for a record. -/
def rest (topic : String) (w : Wish) (p : Progress) : Act Unit := do
  let p ← p.next topic w
  let p ← p.next topic w
  let _ ← p.next topic w
  pure ()

theorem rest_returned (topic : String) (w : Wish) (insertion : Option Insertion) :
    rest topic w (returned insertion) = pure () := by
  simp only [rest, next, pure_bind]

theorem rest_sought (topic : String) (w : Wish) (protocol : Protocol) :
    rest topic w (sought protocol) = (do
      let endpoint ← openEndpoint topic protocol w.qos
      let insertion ← offer topic w.callback endpoint w.qos true
      conclude topic protocol endpoint.port true insertion) := by
  simp only [rest, next, bind_assoc, pure_bind, bind_pure_unit]

end Progress

/-- **A call that runs alone takes the steps of a subscription.** -/
theorem subscribe_eq_steps (topic : String) (w : Wish) :
    subscribe topic w.callback w.protocols w.qos =
      Progress.next topic w .called >>= Progress.rest topic w := by
  show _ = Progress.look topic w >>= Progress.rest topic w
  unfold subscribe Progress.look
  simp only [bind_assoc]
  congr 1
  funext _
  congr 1
  funext _
  congr 1
  funext n
  by_cases reserved : isReserved n.config.discovery topic = true
  · rw [if_pos reserved, if_pos reserved]
    rfl
  · rw [if_neg reserved, if_neg reserved]
    cases preference.find? w.protocols.contains with
    | none => rfl
    | some protocol =>
      unfold subscribeWith
      dsimp only
      rw [bind_assoc]
      congr 1
      funext found
      cases found with
      | true =>
        rw [if_pos rfl, if_pos rfl, pure_bind, Progress.rest_returned]
      | false =>
        rw [if_neg Bool.false_ne_true, if_neg Bool.false_ne_true, pure_bind, Progress.rest_sought]

/-! ## One step -/

variable {s s' : Station} {topic : String} {w : Wish}

theorem mem_join_iff {record : Subscription Callback} {callback other : Callback} :
    other ∈ (record.join callback).callbacks ↔ other ∈ record.callbacks ∨ other = callback := by
  refine ⟨Subscription.mem_join, fun either => ?_⟩
  unfold Subscription.join
  split
  · next there => exact either.elim (fun there => there) fun same => same ▸ there
  · exact List.mem_append.2 (either.imp_right List.mem_singleton.2)

theorem offer_some {callback : Callback} {record : Subscription Callback}
    (found : s.node.subscriptions.get? topic = some record) (endpoint : Endpoint) (qos : QoS)
    (advertised : Bool) :
    offer topic callback endpoint qos advertised s =
      .ok (.merged endpoint)
        { s with node := s.node.withRecord topic (record.join callback) } := by
  unfold offer
  rw [bind_ok (node_eq s), Subscriptions.insert, found]
  rfl

theorem undo_fails (topic : String) (e : Error) (s : Station) :
    ∃ e' s', undo topic e s = .error e' s' := by
  have thrown : ∀ (act : Act Unit) (s : Station), ∃ e' s',
      (act >>= fun _ => (throw e : Act Unit)) s = .error e' s' := by
    intro act s
    cases run : act s with
    | ok a s' =>
      rw [bind_ok run]
      exact ⟨e, s', rfl⟩
    | error e' s' => exact ⟨e', s', bind_error run⟩
  unfold undo
  cases found : s.node.subscriptions.get? topic with
  | none =>
    rw [bind_ok (removeRecord_none found)]
    exact thrown (pure ()) s
  | some record =>
    rw [bind_ok (removeRecord_some found)]
    exact thrown (teardown topic record.endpoint) _

theorem post_cases (m : Message) (s : Station) :
    (∃ e, post m s = .error e s) ∨ post m s = .ok () { s with hub := s.hub.publish m } := by
  unfold post onLine Line.publish Line.ifConnected
  cases s.outage.line .publish with
  | some e => exact .inl ⟨e, rfl⟩
  | none =>
    dsimp only
    cases s.node.line.isConnected s.hub with
    | false => exact .inl ⟨_, rfl⟩
    | true => exact .inr rfl

/-- A topic stays advertised whether it could be announced or not. -/
theorem advertise_cases (topic : String) (c : Capability) (s : Station) :
    let n := s.node.withAdvertised (s.node.discovery.advertised.insert topic c)
    (∃ e, advertise topic c s = .error e { s with node := n }) ∨
      ∃ m, advertise topic c s = .ok () { s with node := n, hub := s.hub.publish m } := by
  intro n
  let served : Station := { s with node := n }
  unfold advertise
  rw [bind_ok (changeNode_eq _ s)]
  show (∃ e, announce served = .error e served) ∨ ∃ m, announce served = .ok () _
  unfold announce
  rw [bind_ok (node_eq served)]
  cases served.node.config.discovery.announce (served.node.discovery.own
    served.node.config.discovery) with
  | error e => exact .inl ⟨e.toError, rfl⟩
  | ok m => exact (post_cases m served).imp_right fun posted => ⟨m, posted⟩

/-- One step of a call over the broker, on a connected line. -/
inductive Stride (topic : String) (w : Wish) (s : Station) : Progress → Progress → Station → Prop
  | fails {p : Progress} (e : Error) (s' : Station) : Stride topic w s p (.failed e) s'
  | idled {p : Progress} : Stride topic w s p p s
  | seeks :
    s.node.subscriptions.get? topic = none →
    Stride topic w s .called (.sought .broker) s
  | joins {record : Subscription Callback} :
    s.node.subscriptions.get? topic = some record →
    Stride topic w s .called (.returned none)
      { s with node := s.node.withRecord topic (record.join w.callback) }
  | opens :
    Stride topic w s (.sought .broker) (.opened .broker .broker)
      { s with hub := s.hub.subscribe topic s.node.line.client w.qos }
  | inserts :
    s.node.subscriptions.get? topic = none →
    Stride topic w s (.opened .broker .broker) (.offered .broker .broker .inserted)
      { s with node := s.node.withRecord topic ⟨[w.callback], .broker, w.qos, true⟩ }
  | merges {record : Subscription Callback} :
    s.node.subscriptions.get? topic = some record →
    Stride topic w s (.opened .broker .broker) (.offered .broker .broker (.merged .broker))
      { s with node := s.node.withRecord topic (record.join w.callback) }
  | advertises (advertised : KeyMap String Capability) (m : Message) :
    Stride topic w s (.offered .broker .broker .inserted) (.returned (some .inserted))
      { s with node := s.node.withAdvertised advertised, hub := s.hub.publish m }
  | closes :
    Stride topic w s (.offered .broker .broker (.merged .broker))
      (.returned (some (.merged .broker)))
      { s with hub := s.hub.unsubscribe topic s.node.line.client }

/-- Whether a call goes over the broker as far as it has come. -/
inductive Progress.OverBroker : Progress → Prop
  | called : OverBroker called
  | sought : OverBroker (sought .broker)
  | opened : OverBroker (opened .broker .broker)
  | inserted : OverBroker (offered .broker .broker .inserted)
  | merged : OverBroker (offered .broker .broker (.merged .broker))
  | returned (insertion : Option Insertion) : OverBroker (returned insertion)
  | failed (e : Error) : OverBroker (failed e)

theorem Stride.overBroker {p p' : Progress} (stride : Stride topic w s p p' s')
    (brokered : p.OverBroker) : p'.OverBroker := by
  cases stride with
  | idled => exact brokered
  | _ => constructor

/-- What a step of a call comes to: its progress and the station, or an error. -/
def Progress.outcome (topic : String) (w : Wish) (p : Progress) (s : Station) :
    Progress × Station :=
  match p.next topic w s with
  | .ok p s => (p, s)
  | .error e s => (.failed e, s)

theorem stride_of_error {p : Progress} {e : Error} (run : p.next topic w s = .error e s') :
    Stride topic w s p (p.outcome topic w s).1 (p.outcome topic w s).2 := by
  unfold Progress.outcome
  rw [run]
  exact .fails e s'

theorem stride_of_ok {p p' : Progress} (run : p.next topic w s = .ok p' s')
    (stride : Stride topic w s p p' s') :
    Stride topic w s p (p.outcome topic w s).1 (p.outcome topic w s).2 := by
  unfold Progress.outcome
  rw [run]
  exact stride

/-- **The first step** fails and changes nothing, or finds no record and changes nothing, or
joins the record that it finds. -/
theorem look_cases (topic : String) (w : Wish) (s : Station) :
    (∃ e, Progress.look topic w s = .error e s) ∨
      (∃ protocol, preference.find? w.protocols.contains = some protocol ∧
        s.isConnected = true ∧ s.node.subscriptions.get? topic = none ∧
          Progress.look topic w s = .ok (.sought protocol) s) ∨
      ∃ record, s.node.subscriptions.get? topic = some record ∧
        Progress.look topic w s = .ok (.returned none)
          { s with node := s.node.withRecord topic (record.join w.callback) } := by
  unfold Progress.look
  rcases checkTopic_cases (s := s) topic with ⟨topic_ok, -⟩ | ⟨e, fails⟩
  · rw [bind_ok topic_ok]
    rcases checkProtocols_cases (s := s) w.protocols with ⟨protocols_ok, -⟩ | ⟨e, fails⟩
    · rw [bind_ok protocols_ok, bind_ok (node_eq s)]
      split
      · exact .inl ⟨_, rfl⟩
      · cases preference.find? w.protocols.contains with
        | none => exact .inl ⟨_, rfl⟩
        | some protocol =>
          dsimp only
          cases found : s.node.subscriptions.get? topic with
          | none =>
            have look := findRecord_none w.callback found
            cases up : s.isConnected with
            | false =>
              rw [up, if_neg Bool.false_ne_true] at look
              exact .inl ⟨_, bind_error look⟩
            | true =>
              rw [up, if_pos rfl] at look
              rw [bind_ok look]
              exact .inr (.inl ⟨protocol, rfl, rfl, rfl, rfl⟩)
          | some record =>
            rw [bind_ok (findRecord_some found)]
            exact .inr (.inr ⟨record, rfl, rfl⟩)
    · rw [bind_error fails]
      exact .inl ⟨e, rfl⟩
  · rw [bind_error fails]
    exact .inl ⟨e, rfl⟩

/-- **Every step of a call over the broker is a stride.** -/
theorem stride_outcome (steady : s.Steady) (up : s.isConnected = true)
    (picks : preference.find? w.protocols.contains = some .broker) {p : Progress}
    (brokered : p.OverBroker) :
    Stride topic w s p (p.outcome topic w s).1 (p.outcome topic w s).2 := by
  cases brokered with
  | called =>
    rcases look_cases topic w s with
      ⟨e, run⟩ | ⟨protocol, picked, -, none_yet, run⟩ | ⟨record, found, run⟩
    · exact stride_of_error run
    · obtain rfl := Option.some.inj (picks.symm.trans picked)
      exact stride_of_ok run (.seeks none_yet)
    · exact stride_of_ok run (.joins found)
  | sought =>
    refine stride_of_ok ?_ .opens
    show (openEndpoint topic .broker w.qos >>= fun endpoint =>
      pure (Progress.opened .broker endpoint)) s = _
    rw [openEndpoint_broker, bind_assoc, bind_ok (subscribeFilter_connected steady up topic w.qos)]
    rfl
  | opened =>
    cases found : s.node.subscriptions.get? topic with
    | none => exact stride_of_ok (bind_ok (offer_none found)) (.inserts found)
    | some record => exact stride_of_ok (bind_ok (offer_some found ..)) (.merges found)
  | inserted =>
    rcases advertise_cases topic ⟨.broker, Endpoint.broker.port⟩ s with ⟨e, run⟩ | ⟨m, run⟩
    · obtain ⟨e', t', undone⟩ := undo_fails topic e
        { s with node := s.node.withAdvertised (s.node.discovery.advertised.insert topic
          ⟨.broker, Endpoint.broker.port⟩) }
      have concludes := conclude_inserted topic .broker Endpoint.broker.port s
      rw [run] at concludes
      exact stride_of_error (bind_error (concludes.trans undone))
    · have concludes := conclude_inserted topic .broker Endpoint.broker.port s
      rw [run] at concludes
      exact stride_of_ok (bind_ok concludes) (.advertises _ m)
  | merged =>
    have concludes : conclude topic .broker Endpoint.broker.port true (.merged .broker) s =
        .ok () { s with hub := s.hub.unsubscribe topic s.node.line.client } := by
      show (isConnected >>= fun up =>
        if up then attempt (unsubscribeFilter topic) else pure ()) s = _
      rw [bind_ok (isConnected_eq s), if_pos up]
      exact attempt_ok (unsubscribeFilter_connected steady up topic)
    exact stride_of_ok (bind_ok concludes) .closes
  | returned insertion => exact stride_of_ok rfl .idled
  | failed e => exact stride_of_ok rfl .idled

/-! ## Many steps -/

namespace Progress

/-- Whether the caller's callback is in the record. -/
def hasJoined : Progress → Bool
  | offered .. => true
  | returned _ => true
  | _ => false

/-- Whether the call has found no record and gone on. -/
def hasSought : Progress → Bool
  | called => false
  | returned none => false
  | failed _ => false
  | _ => true

/-- Whether the call has opened an endpoint that it is still to offer or to close. -/
def owes : Progress → Bool
  | opened .. => true
  | offered _ _ (.merged _) => true
  | _ => false

/-- Whether the call has closed its endpoint, since there was a record already. -/
def hasClosed : Progress → Bool
  | returned (some (.merged _)) => true
  | _ => false

theorem hasJoined_of_hasClosed {p : Progress} (closed : p.hasClosed = true) :
    p.hasJoined = true := by
  cases p with
  | returned => rfl
  | _ => cases closed

end Progress

/-- A node, and how far the calls have come that it serves at once. -/
structure Crowd (ι : Type) where
  station : Station
  progress : ι → Progress

namespace Crowd

variable {ι : Type} [DecidableEq ι] {wishes : ι → Wish} {c : Crowd ι} {start : Station}

/-- All calls have just been made. -/
def gather (s : Station) : Crowd ι :=
  ⟨s, fun _ => .called⟩

/-- One call goes on by one step. -/
def step (topic : String) (wishes : ι → Wish) (c : Crowd ι) (i : ι) : Crowd ι :=
  let (p, s) := (c.progress i).outcome topic (wishes i) c.station
  ⟨s, Function.update c.progress i p⟩

/-- The calls go on in some order. -/
def run (topic : String) (wishes : ι → Wish) (c : Crowd ι) (order : List ι) : Crowd ι :=
  order.foldl (step topic wishes) c

/-- What holds while no call has failed. -/
structure Gathered (topic : String) (wishes : ι → Wish) (start : Station) (c : Crowd ι) : Prop where
  steady : c.station.Steady
  line : c.station.node.line = start.node.line
  config : c.station.node.config = start.node.config
  clients : c.station.hub.broker.clients = start.hub.broker.clients
  brokered : ∀ i, (c.progress i).OverBroker
  /-- Whose callbacks are in the record. -/
  members : ∀ callback, (∃ record, c.station.node.subscriptions.get? topic = some record ∧
      callback ∈ record.callbacks) ↔
    (∃ record, start.node.subscriptions.get? topic = some record ∧ callback ∈ record.callbacks) ∨
      ∃ i, (c.progress i).hasJoined = true ∧ (wishes i).callback = callback
  nodup : ∀ record, c.station.node.subscriptions.get? topic = some record → record.callbacks.Nodup
  /-- While there is no record, nobody has joined it. -/
  free : c.station.node.subscriptions.get? topic = none →
    start.node.subscriptions.get? topic = none ∧ ∀ i, (c.progress i).hasJoined = false
  /-- If there was a record at the start, nothing is opened. -/
  settled : start.node.subscriptions.get? topic ≠ none →
    (∀ i, (c.progress i).hasSought = false) ∧
      c.station.hub.broker.subscribed topic start.node.id =
        start.hub.broker.subscribed topic start.node.id
  /-- What is opened before there is a record is listed. -/
  opening : c.station.node.subscriptions.get? topic = none → ∀ i, (c.progress i).owes = true →
    c.station.hub.broker.subscribed topic start.node.id = true
  /-- The record is listed until an endpoint is closed. -/
  standing : start.node.subscriptions.get? topic = none →
    c.station.node.subscriptions.get? topic ≠ none → (∀ i, (c.progress i).hasClosed = false) →
      c.station.hub.broker.subscribed topic start.node.id = true
  /-- Once an endpoint was closed, the record is listed only for those still to be closed. -/
  struck : ∀ i, (c.progress i).hasClosed = true →
    c.station.hub.broker.subscribed topic start.node.id = true →
      ∃ j, (c.progress j).owes = true

theorem read_update {β : Type} (f : Progress → β) {progress : ι → Progress} {i : ι} {p : Progress}
    (same : f p = f (progress i)) (j : ι) :
    f (Function.update progress i p j) = f (progress j) := by
  by_cases here : j = i
  · subst here
    rw [Function.update_self, same]
  · rw [Function.update_of_ne here]

omit [DecidableEq ι] in
theorem gathered_start (steady : start.Steady)
    (nodup : ∀ record, start.node.subscriptions.get? topic = some record → record.callbacks.Nodup) :
    Gathered topic wishes start (gather start) where
  steady := steady
  line := rfl
  config := rfl
  clients := rfl
  brokered _ := .called
  members callback := by
    refine ⟨.inl, fun either => either.resolve_right ?_⟩
    rintro ⟨i, joined, -⟩
    cases joined
  nodup := nodup
  free none_yet := ⟨none_yet, fun _ => rfl⟩
  settled _ := ⟨fun _ => rfl, rfl⟩
  opening _ _ owes := nomatch owes
  standing none_yet there := absurd none_yet there
  struck _ closed := nomatch closed

/-- A step that leaves the record and the broker's list as they are. -/
theorem Gathered.quiet (gathered : Gathered topic wishes start c) {i : ι} {p : Progress}
    {s : Station} (steady : s.Steady) (line : s.node.line = c.station.node.line)
    (config : s.node.config = c.station.node.config)
    (clients : s.hub.broker.clients = c.station.hub.broker.clients)
    (subscriptions : s.node.subscriptions = c.station.node.subscriptions)
    (listed : s.hub.broker.subscribed topic start.node.id =
      c.station.hub.broker.subscribed topic start.node.id)
    (brokered : p.OverBroker) (joined : p.hasJoined = (c.progress i).hasJoined)
    (sought : start.node.subscriptions.get? topic ≠ none → p.hasSought = false)
    (owes : p.owes = (c.progress i).owes) (closed : p.hasClosed = (c.progress i).hasClosed) :
    Gathered topic wishes start ⟨s, Function.update c.progress i p⟩ where
  steady := steady
  line := line.trans gathered.line
  config := config.trans gathered.config
  clients := clients.trans gathered.clients
  brokered := (Function.forall_update_iff c.progress fun _ p => p.OverBroker).2
    ⟨brokered, fun j _ => gathered.brokered j⟩
  members := by
    simp only [subscriptions, read_update Progress.hasJoined joined]
    exact gathered.members
  nodup := by
    rw [subscriptions]
    exact gathered.nodup
  free := by
    simp only [subscriptions, read_update Progress.hasJoined joined]
    exact gathered.free
  settled there := by
    obtain ⟨unsought, same⟩ := gathered.settled there
    exact ⟨(Function.forall_update_iff c.progress fun _ p => p.hasSought = false).2
      ⟨sought there, fun j _ => unsought j⟩, listed.trans same⟩
  opening := by
    simp only [subscriptions, listed, read_update Progress.owes owes]
    exact gathered.opening
  standing := by
    simp only [subscriptions, listed, read_update Progress.hasClosed closed]
    exact gathered.standing
  struck := by
    simp only [listed, read_update Progress.hasClosed closed, read_update Progress.owes owes]
    exact gathered.struck

/-- A step that lets the caller's callback join the record. -/
theorem Gathered.joined (gathered : Gathered topic wishes start c) {i : ι} {p : Progress}
    {record : Subscription Callback}
    (found : c.station.node.subscriptions.get? topic = some record)
    (brokered : p.OverBroker) (joined : p.hasJoined = true)
    (sought : start.node.subscriptions.get? topic ≠ none → p.hasSought = false)
    (owes : p.owes = (c.progress i).owes) (closed : p.hasClosed = (c.progress i).hasClosed) :
    Gathered topic wishes start
      ⟨{ c.station with
        node := c.station.node.withRecord topic (record.join (wishes i).callback) },
        Function.update c.progress i p⟩ := by
  have there : (c.station.node.withRecord topic
      (record.join (wishes i).callback)).subscriptions.get? topic =
        some (record.join (wishes i).callback) := (get?_withRecord ..).trans (if_pos rfl)
  have occupied : c.station.node.subscriptions.get? topic ≠ none := by
    rw [found]
    exact Option.some_ne_none record
  refine ⟨gathered.steady, gathered.line, gathered.config, gathered.clients,
    (Function.forall_update_iff c.progress fun _ p => p.OverBroker).2
      ⟨brokered, fun j _ => gathered.brokered j⟩, ?_, ?_, ?_, ?_, ?_, ?_, ?_⟩
  · intro callback
    have before := gathered.members callback
    simp only [found, Option.some.injEq, exists_eq_left'] at before
    rw [Function.exists_update_iff c.progress fun j p =>
      p.hasJoined = true ∧ (wishes j).callback = callback]
    constructor
    · rintro ⟨record', found', there'⟩
      cases there.symm.trans found'
      rcases mem_join_iff.1 there' with old | rfl
      · refine (before.1 old).imp_right fun ⟨j, joined_j, same⟩ => ?_
        by_cases here : j = i
        · exact .inl ⟨joined, here ▸ same⟩
        · exact .inr ⟨j, here, joined_j, same⟩
      · exact .inr (.inl ⟨joined, rfl⟩)
    · intro either
      refine ⟨_, there, mem_join_iff.2 ?_⟩
      rcases either with at_start | ⟨-, same⟩ | ⟨j, -, joined_j, same⟩
      · exact .inl (before.2 (.inl at_start))
      · exact .inr same.symm
      · exact .inl (before.2 (.inr ⟨j, joined_j, same⟩))
  · intro record' found'
    cases there.symm.trans found'
    exact Subscription.nodup_join _ (gathered.nodup record found)
  · intro none_left
    cases there.symm.trans none_left
  · intro at_start
    obtain ⟨unsought, same⟩ := gathered.settled at_start
    exact ⟨(Function.forall_update_iff c.progress fun _ p => p.hasSought = false).2
      ⟨sought at_start, fun j _ => unsought j⟩, same⟩
  · intro none_left
    cases there.symm.trans none_left
  · intro none_first _ unclosed
    simp only [read_update Progress.hasClosed closed] at unclosed
    exact gathered.standing none_first occupied unclosed
  · simp only [read_update Progress.hasClosed closed, read_update Progress.owes owes]
    exact gathered.struck

/-- The first offer makes the record. -/
theorem Gathered.inserted (gathered : Gathered topic wishes start c) {i : ι}
    (was : c.progress i = .opened .broker .broker)
    (none_yet : c.station.node.subscriptions.get? topic = none) :
    Gathered topic wishes start
      ⟨{ c.station with
        node := c.station.node.withRecord topic
          ⟨[(wishes i).callback], .broker, (wishes i).qos, true⟩ },
        Function.update c.progress i (.offered .broker .broker .inserted)⟩ := by
  obtain ⟨none_first, nobody⟩ := gathered.free none_yet
  let record : Subscription Callback := ⟨[(wishes i).callback], .broker, (wishes i).qos, true⟩
  have there : (c.station.node.withRecord topic record).subscriptions.get? topic = some record :=
    (get?_withRecord ..).trans (if_pos rfl)
  refine ⟨gathered.steady, gathered.line, gathered.config, gathered.clients,
    (Function.forall_update_iff c.progress fun _ p => p.OverBroker).2
      ⟨.inserted, fun j _ => gathered.brokered j⟩, ?_, ?_, ?_, ?_, ?_, ?_, ?_⟩
  · intro callback
    rw [Function.exists_update_iff c.progress fun j p =>
      p.hasJoined = true ∧ (wishes j).callback = callback]
    constructor
    · rintro ⟨record', found', there'⟩
      cases there.symm.trans found'
      exact .inr (.inl ⟨rfl, (List.mem_singleton.1 there').symm⟩)
    · rintro (⟨record', at_start, -⟩ | ⟨-, rfl⟩ | ⟨j, -, joined, -⟩)
      · cases none_first.symm.trans at_start
      · exact ⟨record, there, List.mem_singleton_self _⟩
      · exact absurd (joined.symm.trans (nobody j)) (by simp)
  · intro record' found'
    cases there.symm.trans found'
    exact List.nodup_singleton _
  · intro none_left
    cases there.symm.trans none_left
  · exact fun at_start => absurd none_first at_start
  · intro none_left
    cases there.symm.trans none_left
  · intro _ _ _
    exact gathered.opening none_yet i (by rw [was]; rfl)
  · intro j closed
    -- who has closed an endpoint has joined a record, and there was none
    have before : (c.progress j).hasClosed = true := by
      rw [← closed]
      exact (read_update (i := i) Progress.hasClosed (by rw [was]; rfl) j).symm
    cases (Progress.hasJoined_of_hasClosed before).symm.trans (nobody j)

/-- An endpoint is opened, which lists the node. -/
theorem Gathered.opened (gathered : Gathered topic wishes start c) {i : ι}
    (was : c.progress i = .sought .broker) (valid : Filter.isValid topic = true)
    (client : c.station.node.line.client = start.node.id) :
    Gathered topic wishes start
      ⟨{ c.station with
        hub := c.station.hub.subscribe topic c.station.node.line.client (wishes i).qos },
        Function.update c.progress i (.opened .broker .broker)⟩ := by
  have listed : (c.station.hub.subscribe topic c.station.node.line.client
      (wishes i).qos).broker.subscribed topic start.node.id = true := by
    rw [Hub.broker_subscribe, Broker.subscribed_subscribe, decide_eq_true ⟨valid, rfl, client⟩,
      Bool.or_true]
  have joined : (Progress.opened .broker .broker).hasJoined = (c.progress i).hasJoined := by
    rw [was]
    rfl
  refine ⟨gathered.steady, gathered.line, gathered.config,
    (Broker.clients_subscribe ..).trans gathered.clients,
    (Function.forall_update_iff c.progress fun _ p => p.OverBroker).2
      ⟨.opened, fun j _ => gathered.brokered j⟩, ?_, gathered.nodup, ?_, ?_, fun _ _ _ => listed,
    fun _ _ _ => listed,
    fun _ _ _ => ⟨i, congrArg Progress.owes (Function.update_self i _ c.progress)⟩⟩
  · simp only [read_update Progress.hasJoined joined]
    exact gathered.members
  · simp only [read_update Progress.hasJoined joined]
    exact gathered.free
  · intro at_start
    have unsought := (gathered.settled at_start).1 i
    rw [was] at unsought
    cases unsought

/-- An endpoint that is not needed is closed, which strikes the node off. -/
theorem Gathered.closed (gathered : Gathered topic wishes start c) {i : ι}
    (was : c.progress i = .offered .broker .broker (.merged .broker))
    (client : c.station.node.line.client = start.node.id) :
    Gathered topic wishes start
      ⟨{ c.station with
        hub := c.station.hub.unsubscribe topic c.station.node.line.client },
        Function.update c.progress i (.returned (some (.merged .broker)))⟩ := by
  have struck : (c.station.hub.unsubscribe topic
      c.station.node.line.client).broker.subscribed topic start.node.id = false := by
    rw [Hub.broker_unsubscribe, Broker.subscribed_unsubscribe, decide_eq_true ⟨rfl, client⟩]
    exact Bool.and_false _
  have joined : (Progress.returned (some (.merged .broker))).hasJoined =
      (c.progress i).hasJoined := by
    rw [was]
    rfl
  refine ⟨gathered.steady, gathered.line, gathered.config,
    (Broker.clients_unsubscribe ..).trans gathered.clients,
    (Function.forall_update_iff c.progress fun _ p => p.OverBroker).2
      ⟨.returned _, fun j _ => gathered.brokered j⟩, ?_, gathered.nodup, ?_, ?_, ?_, ?_, ?_⟩
  · simp only [read_update Progress.hasJoined joined]
    exact gathered.members
  · simp only [read_update Progress.hasJoined joined]
    exact gathered.free
  · intro at_start
    have unsought := (gathered.settled at_start).1 i
    rw [was] at unsought
    cases unsought
  · intro none_yet
    have nobody := (gathered.free none_yet).2 i
    rw [was] at nobody
    cases nobody
  · intro _ _ unclosed
    cases (congrArg Progress.hasClosed (Function.update_self i _ c.progress)).symm.trans (unclosed i)
  · intro _ _ listed
    cases struck.symm.trans listed

/-- **What holds while no call has failed** is kept by every step. -/
theorem gathered_step (gathered : Gathered topic wishes start c) (valid : Filter.isValid topic = true)
    (moored : start.Moored) (up : start.isConnected = true) {i : ι}
    (picks : preference.find? (wishes i).protocols.contains = some .broker)
    (going : ∀ e, ((c.step topic wishes i).progress i) ≠ .failed e) :
    Gathered topic wishes start (c.step topic wishes i) := by
  have client : c.station.node.line.client = start.node.id := by
    rw [gathered.line]
    exact moored.client
  have connected : c.station.isConnected = true := by
    rw [← up, Station.isConnected, gathered.line]
    exact Line.isConnected_congr gathered.clients
  have brokered := gathered.brokered i
  have stride : Stride topic (wishes i) c.station (c.progress i) _ _ :=
    stride_outcome gathered.steady connected picks brokered
  have steps : c.step topic wishes i =
      ⟨((c.progress i).outcome topic (wishes i) c.station).2,
        Function.update c.progress i ((c.progress i).outcome topic (wishes i) c.station).1⟩ := rfl
  rw [steps] at going ⊢
  generalize (c.progress i).outcome topic (wishes i) c.station = outcome at stride going ⊢
  obtain ⟨p', s'⟩ := outcome
  dsimp only at stride going ⊢
  have brokered' := stride.overBroker brokered
  rw [Function.update_self] at going
  -- if there was a record at the start, whoever seeks has found it
  have unsought : start.node.subscriptions.get? topic ≠ none → (c.progress i).hasSought = false :=
    fun at_start => (gathered.settled at_start).1 i
  generalize was : c.progress i = p at stride unsought
  cases stride with
  | fails e => exact absurd rfl (going e)
  | idled =>
    exact gathered.quiet gathered.steady rfl rfl rfl rfl rfl brokered' (by rw [was]) unsought
      (by rw [was]) (by rw [was])
  | seeks none_yet =>
    exact gathered.quiet gathered.steady rfl rfl rfl rfl rfl brokered' (by rw [was]; rfl)
      (fun at_start => absurd (gathered.free none_yet).1 at_start) (by rw [was]; rfl)
      (by rw [was]; rfl)
  | joins found =>
    exact gathered.joined found brokered' rfl (fun _ => rfl) (by rw [was]; rfl) (by rw [was]; rfl)
  | opens => exact gathered.opened was valid client
  | inserts none_yet => exact gathered.inserted was none_yet
  | merges found =>
    exact gathered.joined found brokered' rfl unsought (by rw [was]; rfl) (by rw [was]; rfl)
  | advertises advertised m =>
    exact gathered.quiet gathered.steady rfl rfl rfl rfl rfl brokered' (by rw [was]; rfl) unsought
      (by rw [was]; rfl) (by rw [was]; rfl)
  | closes => exact gathered.closed was client

/-- A call that has failed stays so. -/
theorem failed_step {i j : ι} {e : Error} (failed : c.progress i = .failed e) :
    (c.step topic wishes j).progress i = .failed e := by
  show Function.update c.progress j _ i = _
  by_cases here : i = j
  · subst here
    rw [Function.update_self, failed]
    rfl
  · rw [Function.update_of_ne here, failed]

theorem failed_run {i : ι} {e : Error} (order : List ι) (c : Crowd ι)
    (failed : c.progress i = .failed e) :
    (c.run topic wishes order).progress i = .failed e := by
  induction order generalizing c with
  | nil => exact failed
  | cons j order ih => exact ih _ (failed_step failed)

theorem gathered_run (valid : Filter.isValid topic = true) (moored : start.Moored)
    (up : start.isConnected = true)
    (picks : ∀ i, preference.find? (wishes i).protocols.contains = some .broker)
    (order : List ι) (c : Crowd ι) (gathered : Gathered topic wishes start c)
    (going : ∀ i e, (c.run topic wishes order).progress i ≠ .failed e) :
    Gathered topic wishes start (c.run topic wishes order) := by
  induction order generalizing c with
  | nil => exact gathered
  | cons i order ih =>
    refine ih _ (gathered_step gathered valid moored up (picks i) fun e failed => ?_) going
    exact going i e (failed_run order _ failed)

/-- **When all calls have returned**, the topic has one record, with every callback once;
and the broker lists the node just if no call had its offer merged into the record of
another. -/
theorem listed_iff_unmerged [Nonempty ι] (steady : start.Steady) (moored : start.Moored)
    (up : start.isConnected = true) (valid : Filter.isValid topic = true)
    (nodup : ∀ record, start.node.subscriptions.get? topic = some record → record.callbacks.Nodup)
    (picks : ∀ i, preference.find? (wishes i).protocols.contains = some .broker) (order : List ι) :
    let c := (gather start).run topic wishes order
    (∀ i, ∃ insertion, c.progress i = .returned insertion) →
    (∃ record, c.station.node.subscriptions.get? topic = some record ∧ record.callbacks.Nodup ∧
      ∀ callback, callback ∈ record.callbacks ↔
        callback ∈ start.node.subscriptions.callbacks topic ∨ ∃ i, (wishes i).callback = callback) ∧
    (c.station.hub.broker.subscribed topic start.node.id = true ↔
      (start.node.subscriptions.get? topic = none ∨
        start.hub.broker.subscribed topic start.node.id = true) ∧
      ∀ i endpoint, c.progress i ≠ .returned (some (.merged endpoint))) := by
  intro c done
  have gathered : Gathered topic wishes start c := by
    refine gathered_run valid moored up picks order _ (gathered_start steady nodup) fun i e failed => ?_
    obtain ⟨insertion, returned⟩ := done i
    cases returned.symm.trans failed
  have joined : ∀ i, (c.progress i).hasJoined = true := by
    intro i
    obtain ⟨insertion, returned⟩ := done i
    rw [returned]
    rfl
  have unmerged : (∀ i endpoint, c.progress i ≠ .returned (some (.merged endpoint))) ↔
      ∀ i, (c.progress i).hasClosed = false := by
    refine forall_congr' fun i => ?_
    obtain ⟨insertion, returned⟩ := done i
    rw [returned]
    rcases insertion with _ | _ | endpoint <;> simp [Progress.hasClosed]
  obtain ⟨someone⟩ := ‹Nonempty ι›
  cases found : c.station.node.subscriptions.get? topic with
  | none =>
    cases (joined someone).symm.trans ((gathered.free found).2 someone)
  | some record =>
    have occupied : c.station.node.subscriptions.get? topic ≠ none := by
      rw [found]
      exact Option.some_ne_none record
    refine ⟨⟨record, rfl, gathered.nodup record found, fun callback => ?_⟩, ?_⟩
    · have members := gathered.members callback
      simp only [found, Option.some.injEq, exists_eq_left', joined, true_and] at members
      rw [members, Subscriptions.callbacks]
      cases start.node.subscriptions.get? topic <;> simp
    · rw [unmerged]
      constructor
      · intro listed
        refine ⟨?_, fun i => Bool.eq_false_iff.2 fun closed => ?_⟩
        · by_cases none_first : start.node.subscriptions.get? topic = none
          · exact .inl none_first
          · exact .inr ((gathered.settled none_first).2.symm.trans listed)
        · -- nobody is left for whom the record could be listed
          obtain ⟨j, owes⟩ := gathered.struck i closed listed
          obtain ⟨insertion, returned⟩ := done j
          rw [returned] at owes
          cases owes
      · rintro ⟨before, unclosed⟩
        by_cases none_first : start.node.subscriptions.get? topic = none
        · exact gathered.standing none_first occupied unclosed
        · exact (gathered.settled none_first).2.trans (before.resolve_left none_first)

/-! ## Two callers -/

/-- Two callers subscribe a topic over the broker. -/
def twoWishes (second : Bool) : Wish :=
  ⟨⟨if second then "d" else "c", none⟩, .only .broker, .atMostOnce⟩

/-- A connected node that has subscribed nothing. -/
def idle : Station :=
  (runOf (lone true) [.connect]).2

theorem inStep_idle : InStep "b" idle :=
  inStep_run (unheard_lone true) ⟨by decide +kernel, by decide +kernel⟩ (comes_runOf ..)

theorem picks_twoWishes (second : Bool) :
    preference.find? (twoWishes second).protocols.contains = some .broker := by
  cases second <;> decide

/-- Who comes when the other has returned only adds a callback. -/
theorem listed_in_turn :
    let c := (gather idle).run "t" twoWishes [false, false, false, false, true]
    (∀ i, ∃ insertion, c.progress i = .returned insertion) ∧
    (∃ record, c.station.node.subscriptions.get? "t" = some record ∧ record.callbacks.Nodup ∧
      ∀ callback, callback ∈ record.callbacks ↔
        callback ∈ idle.node.subscriptions.callbacks "t" ∨ ∃ i, (twoWishes i).callback = callback) ∧
    (c.station.hub.broker.subscribed "t" idle.node.id = true ↔
      (idle.node.subscriptions.get? "t" = none ∨
        idle.hub.broker.subscribed "t" idle.node.id = true) ∧
      ∀ i endpoint, c.progress i ≠ .returned (some (.merged endpoint))) := by
  intro c
  have done : ∀ i, ∃ insertion, c.progress i = .returned insertion := by
    rintro (_ | _)
    · exact ⟨some .inserted, by decide +kernel⟩
    · exact ⟨none, by decide +kernel⟩
  exact ⟨done, listed_iff_unmerged inStep_idle.steady inStep_idle.enrolled.moored
    (by decide +kernel) (by decide +kernel) (fun _ none_yet => nomatch none_yet) picks_twoWishes _
    done⟩

/-- Two callers that both look before there is a record cut the node off. -/
theorem not_always_listed :
    ¬∀ (start : Station) (wishes : Bool → Wish) (topic : String) (order : List Bool),
      start.Steady → start.Moored → start.isConnected = true → Filter.isValid topic = true →
      start.node.subscriptions.get? topic = none →
      (∀ i, preference.find? (wishes i).protocols.contains = some .broker) →
      (∀ i, ∃ insertion,
        ((gather start).run topic wishes order).progress i = .returned insertion) →
      ((gather start).run topic wishes order).station.hub.broker.subscribed topic
        start.node.id = true := by
  intro always
  have listed := always idle twoWishes "t" [false, true, false, true, false, true, false, true]
    inStep_idle.steady inStep_idle.enrolled.moored (by decide +kernel) (by decide +kernel) rfl
    picks_twoWishes (by
      rintro (_ | _)
      · exact ⟨some .inserted, by decide +kernel⟩
      · exact ⟨some (.merged .broker), by decide +kernel⟩)
  revert listed
  decide +kernel

end Crowd

end TopicMesh.Node
