import TopicMesh.Proofs.Node.AtOnce

/-!
# Subscriptions that fail

A subscription changes four things one after the other: the endpoint that it opens, the
record that it makes, what the node advertises, and what it announces.  Whatever fails on
the way, the caller is told so, and expects to find nothing changed (`AsBefore`).

If one of the steps before the announcement fails, nothing has changed (`prepare_cases`).
If the announcement fails, the record is taken out again and the endpoint closed, but the
topic stays advertised, to be announced with the next one (`conclude_cases`).  Closing the
endpoint undoes its opening if nobody listened at its port before (`Opening.closed`) and, at
the broker, if the broker did not list the topic before and hears that it is ended.

**So a call that fails leaves nothing behind just if it fails before its announcement, or
all of that holds and the topic was advertised with the same endpoint before**
(`undone_iff`).
-/

namespace TopicMesh

open Node Act Station

/-- **Whether everything is as it was that a subscription may change**: the node's records
and what it advertises, the filters that the broker lists it for, and the listeners of the
network. -/
structure Station.AsBefore (s s' : Station) : Prop where
  subscriptions : s'.node.subscriptions = s.node.subscriptions
  advertised : s'.node.discovery.advertised = s.node.discovery.advertised
  filters : ∀ filter, s'.hub.broker.subscribed filter s.node.line.client =
    s.hub.broker.subscribed filter s.node.line.client
  listeners : s'.network.listeners = s.network.listeners

theorem Station.AsBefore.refl (s : Station) : s.AsBefore s :=
  ⟨rfl, rfl, fun _ => rfl, rfl⟩

namespace Node

variable {s s' : Station} {topic : String} {w : Wish}

/-! ## Opening and closing -/

theorem listeners_listen {n n' : DirectNetwork} {l : Listener} {port : UInt16}
    (opens : n.listen l = (n', port)) : n'.listeners = n.listeners.insert port l := by
  have takes : (n.takePort l.protocol).1.listeners = n.listeners := by
    unfold DirectNetwork.takePort
    split <;> rfl
  cases opens
  show (n.takePort l.protocol).1.listeners.insert _ l = _
  rw [takes]

theorem attempt_unsubscribeFilter (up : s.isConnected = true) (filter : String) :
    attempt (unsubscribeFilter filter) s = .ok ()
      { s with
        hub := if s.outage.line .unsubscribe = none then
          s.hub.unsubscribe filter s.node.line.client else s.hub } := by
  cases down : s.outage.line .unsubscribe with
  | some e =>
    rw [if_neg (by simp)]
    refine attempt_error (e := e) ?_
    unfold unsubscribeFilter onLine
    rw [down]
  | none =>
    rw [if_pos rfl]
    refine attempt_ok ?_
    unfold unsubscribeFilter onLine Line.unsubscribe Line.ifConnected
    rw [down]
    dsimp only
    rw [if_pos (show s.node.line.isConnected s.hub = true from up)]
    rfl

/-- What is left of the opening of an endpoint that was closed again: no listener at its port,
and at the broker the topic if the broker does not hear that it is ended. -/
structure Closed (s : Station) (topic : String) (endpoint : Endpoint) (s' : Station) : Prop where
  listeners : s'.network.listeners =
    if endpoint = .broker then s.network.listeners else s.network.listeners.erase endpoint.port
  filters : ∀ filter, s'.hub.broker.subscribed filter s.node.line.client =
    ((s.hub.broker.subscribed filter s.node.line.client ||
        decide (endpoint = .broker ∧ Filter.isValid topic = true ∧ topic = filter)) &&
      !decide (endpoint = .broker ∧ s.outage.line .unsubscribe = none ∧ topic = filter))

/-- **An endpoint that was opened can be closed again.** -/
theorem Opening.closed {qos : QoS} {endpoint : Endpoint} {t : Station}
    (opening : Opening s topic qos endpoint t) (up : s.isConnected = true) (n : Node)
    (config : n.config = s.node.config) (line : n.line = s.node.line) :
    ∃ s', teardown topic endpoint { t with node := n } = .ok () s' ∧ s'.node = n ∧
      Closed s topic endpoint s' := by
  cases opening with
  | broker =>
    let opened : Station :=
      { s with node := n, hub := s.hub.subscribe topic s.node.line.client qos }
    have still : opened.isConnected = true := by
      show n.line.isConnected _ = true
      rw [line]
      exact (Line.isConnected_congr (Broker.clients_subscribe ..)).trans up
    have tears : teardown topic .broker opened = _ :=
      (bind_ok (isConnected_eq opened)).trans
        ((congrFun (if_pos still) opened).trans (attempt_unsubscribeFilter still topic))
    refine ⟨_, tears, rfl, (if_pos rfl).symm, fun filter => ?_⟩
    show (if s.outage.line .unsubscribe = none then
      (s.hub.subscribe topic s.node.line.client qos).unsubscribe topic n.line.client else
        s.hub.subscribe topic s.node.line.client qos).broker.subscribed filter _ = _
    rw [line]
    split
    · next heard =>
      rw [Hub.broker_unsubscribe, Broker.subscribed_unsubscribe, Hub.broker_subscribe,
        Broker.subscribed_subscribe]
      simp [heard]
    · next unheard =>
      rw [Hub.broker_subscribe, Broker.subscribed_subscribe]
      simp [unheard]
  | direct protocol port network known opens =>
    have tears : teardown topic (.direct protocol port) { s with node := n, network := network } =
        .ok () ⟨n, s.hub, network.unlisten n.id protocol port, s.outage⟩ := by
      show (if protocol ∈ n.config.transports then unlisten protocol port else pure ()) _ = _
      rw [config, if_pos known]
      rfl
    refine ⟨_, tears, rfl, ?_, fun filter => by simp⟩
    show network.listeners.erase port = _
    rw [listeners_listen opens, KeyMap.erase_insert, if_neg (by simp)]
    rfl
  | peer port network opens =>
    refine ⟨_, rfl, rfl, ?_, fun filter => by simp⟩
    show network.listeners.erase port = _
    rw [listeners_listen opens, KeyMap.erase_insert, if_neg (by simp)]
    rfl

/-! ## How far a call comes -/

/-- The steps of a subscription before its announcement. -/
def Progress.prepare (topic : String) (w : Wish) : Act Progress := do
  let p ← Progress.called.next topic w
  let p ← p.next topic w
  p.next topic w

theorem subscribe_eq_prepare (topic : String) (w : Wish) :
    subscribe topic w.callback w.protocols w.qos =
      Progress.prepare topic w >>= fun p => p.next topic w >>= fun _ => pure () := by
  rw [subscribe_eq_steps]
  unfold Progress.prepare Progress.rest
  simp only [bind_assoc]

/-- The endpoint that a call opens and makes a record of, if it comes as far as its
announcement. -/
def prepared? (s : Station) (topic : String) (w : Wish) : Option Endpoint :=
  match Progress.prepare topic w s with
  | .ok (.offered _ endpoint .inserted) _ => some endpoint
  | _ => none

/-- The station when a call has opened its endpoint and made its record. -/
def recorded (s : Station) (topic : String) (w : Wish) (endpoint : Endpoint) (t : Station) :
    Station :=
  { t with node := s.node.withRecord topic ⟨[w.callback], endpoint, w.qos, true⟩ }

/-- How a call comes as far as its announcement, or does not. -/
inductive Preparing (s : Station) (topic : String) (w : Wish) :
    EStateM.Result Error Station Progress → Prop
  /-- Nothing has changed. -/
  | failed (e : Error) : Preparing s topic w (.error e s)
  /-- A record was there. -/
  | joined (t : Station) : Preparing s topic w (.ok (.returned none) t)
  /-- An endpoint is open, and a record made. -/
  | made (endpoint : Endpoint) (t : Station) :
    s.node.subscriptions.get? topic = none → s.isConnected = true →
    Opening s topic w.qos endpoint t →
    Preparing s topic w
      (.ok (.offered endpoint.protocol endpoint .inserted) (recorded s topic w endpoint t))

/-- **A call that fails before its announcement has changed nothing.** -/
theorem prepare_cases (topic : String) (w : Wish) (s : Station) :
    Preparing s topic w (Progress.prepare topic w s) := by
  unfold Progress.prepare
  rcases look_cases topic w s with ⟨e, run⟩ | ⟨protocol, -, up, fresh, run⟩ | ⟨record, -, run⟩
  · rw [bind_error (show Progress.called.next topic w s = _ from run)]
    exact .failed e
  · rw [bind_ok (show Progress.called.next topic w s = _ from run)]
    rcases openEndpoint_outcome topic protocol w.qos s with
      ⟨e, fails⟩ | ⟨endpoint, t, opens, rfl, opening⟩
    · rw [bind_error (show (Progress.sought protocol).next topic w s = _ from bind_error fails)]
      exact .failed e
    · rw [bind_ok (show (Progress.sought endpoint.protocol).next topic w s = _ from bind_ok opens)]
      have none_yet : t.node.subscriptions.get? topic = none := opening.node ▸ fresh
      rw [show (Progress.opened endpoint.protocol endpoint).next topic w t = _ from
        bind_ok (offer_none none_yet), opening.node]
      exact .made endpoint t fresh up opening
  · rw [bind_ok (show Progress.called.next topic w s = _ from run)]
    exact .joined _

/-! ## What is left of a call -/

/-- What a call leaves behind whose announcement failed. -/
structure Leftover (s : Station) (topic : String) (endpoint : Endpoint) (s' : Station) : Prop
    extends Closed s topic endpoint s' where
  subscriptions : s'.node.subscriptions = s.node.subscriptions
  advertised : s'.node.discovery.advertised =
    s.node.discovery.advertised.insert topic ⟨endpoint.protocol, endpoint.port⟩

/-- The record of a call whose announcement failed is taken out again, and its endpoint
closed. -/
theorem undo_recorded {endpoint : Endpoint} {t : Station}
    (fresh : s.node.subscriptions.get? topic = none) (up : s.isConnected = true)
    (opening : Opening s topic w.qos endpoint t) (advertised : KeyMap String Capability)
    (e : Error) :
    let n := (recorded s topic w endpoint t).node.withAdvertised advertised
    ∃ s', undo topic e { t with node := n } = .error e s' ∧
      s'.node.subscriptions = s.node.subscriptions ∧ s'.node.discovery.advertised = advertised ∧
      Closed s topic endpoint s' := by
  intro n
  let record : Subscription Callback := ⟨[w.callback], endpoint, w.qos, true⟩
  have found : n.subscriptions.get? topic = some record :=
    (get?_withRecord ..).trans (if_pos rfl)
  -- there was no record before, so taking out the new one restores what there was
  have same : (n.withoutRecord topic).subscriptions = s.node.subscriptions := by
    refine congrArg Subscriptions.mk ?_
    show (s.node.subscriptions.byTopic.insert topic record).erase topic = _
    rw [KeyMap.erase_insert, KeyMap.erase_of_get?_eq_none fresh]
  obtain ⟨s', tears, is, closed⟩ := opening.closed up (n.withoutRecord topic) rfl rfl
  refine ⟨s', ?_, ?_, ?_, closed⟩
  · unfold undo
    rw [bind_ok (removeRecord_some (s := { t with node := n }) found)]
    exact (bind_ok tears).trans rfl
  · rw [is, same]
  · rw [is]
    rfl

/-- **A call whose announcement fails leaves its topic advertised.** -/
theorem conclude_cases {endpoint : Endpoint} {t : Station}
    (fresh : s.node.subscriptions.get? topic = none) (up : s.isConnected = true)
    (opening : Opening s topic w.qos endpoint t) :
    (∃ e s', conclude topic endpoint.protocol endpoint.port true .inserted
        (recorded s topic w endpoint t) = .error e s' ∧ Leftover s topic endpoint s') ∨
      ∃ s', conclude topic endpoint.protocol endpoint.port true .inserted
        (recorded s topic w endpoint t) = .ok () s' := by
  have run :=
    conclude_inserted topic endpoint.protocol endpoint.port (recorded s topic w endpoint t)
  rcases advertise_cases topic ⟨endpoint.protocol, endpoint.port⟩
    (recorded s topic w endpoint t) with ⟨e, fails⟩ | ⟨m, announced⟩
  · obtain ⟨s', undone, subscriptions, advertised, closed⟩ := undo_recorded fresh up opening
      (s.node.discovery.advertised.insert topic ⟨endpoint.protocol, endpoint.port⟩) e
    rw [fails] at run
    exact .inl ⟨e, s', run.trans undone, ⟨closed, subscriptions, advertised⟩⟩
  · rw [announced] at run
    exact .inr ⟨_, run⟩

/-! ## Whether nothing is left -/

/-- **Whether all that a call did is undone** whose announcement failed. -/
structure Undoable (s : Station) (topic : String) (endpoint : Endpoint) : Prop where
  /-- The topic was advertised before, with such an endpoint. -/
  advertised : s.node.discovery.advertised.get? topic = some ⟨endpoint.protocol, endpoint.port⟩
  /-- Nobody listened at the port before. -/
  vacant : endpoint ≠ .broker → s.network.listeners.get? endpoint.port = none
  /-- What the broker hears to be ended was not listed before. -/
  struck : endpoint = .broker → s.outage.line .unsubscribe = none →
    s.hub.broker.subscribed topic s.node.line.client = false
  /-- What the broker does not hear to be ended was listed before, or cannot be listed. -/
  spared : endpoint = .broker → s.outage.line .unsubscribe ≠ none →
    Filter.isValid topic = true → s.hub.broker.subscribed topic s.node.line.client = true

theorem Leftover.asBefore_iff {endpoint : Endpoint} (left : Leftover s topic endpoint s') :
    s.AsBefore s' ↔ Undoable s topic endpoint := by
  have listed := left.filters topic
  constructor
  · intro same
    rw [same.filters] at listed
    refine ⟨?_, fun direct => ?_, fun at_broker heard => ?_, fun at_broker unheard valid => ?_⟩
    · rw [← KeyMap.insert_eq_self_iff, ← left.advertised, same.advertised]
    · have listeners := left.listeners
      rw [same.listeners, if_neg direct] at listeners
      exact KeyMap.erase_eq_self_iff.1 listeners.symm
    · rw [listed]
      simp [at_broker, heard]
    · rw [listed]
      simp [at_broker, unheard, valid]
  · intro undoable
    refine ⟨left.subscriptions, ?_, fun filter => ?_, ?_⟩
    · rw [left.advertised, KeyMap.insert_eq_self_iff]
      exact undoable.advertised
    · rw [left.filters]
      by_cases here : topic = filter
      · subst here
        by_cases at_broker : endpoint = .broker
        · by_cases heard : s.outage.line .unsubscribe = none
          · simp [at_broker, heard, undoable.struck at_broker heard]
          · have spared := undoable.spared at_broker heard
            simpa [at_broker, heard] using spared
        · simp [at_broker]
      · simp [here]
    · rw [left.listeners]
      split
      · rfl
      · next direct => exact KeyMap.erase_eq_self_iff.2 (undoable.vacant direct)

end Node

namespace Station

variable {s : Station} {topic : String} {w : Wish}

/-- **A subscription that fails leaves nothing behind, if and only if it fails before its
announcement or all that it did is undone**, whatever the station is like and whichever calls
fail by themselves.  Its record is taken out in any case. -/
theorem undone_iff
    (failed : Act.succeeds (Node.subscribe topic w.callback w.protocols w.qos) s = false) :
    let s' := after (Node.subscribe topic w.callback w.protocols w.qos) s
    s'.node.subscriptions = s.node.subscriptions ∧
      (s.AsBefore s' ↔
        ∀ endpoint, prepared? s topic w = some endpoint → Undoable s topic endpoint) := by
  intro s'
  have is : s' = after (Node.subscribe topic w.callback w.protocols w.qos) s := rfl
  clear_value s'
  rw [subscribe_eq_prepare] at failed is
  have stages := prepare_cases topic w s
  unfold prepared?
  generalize run : Progress.prepare topic w s = result at stages
  cases stages with
  | failed e =>
    rw [after_bind_error run] at is
    subst is
    exact ⟨rfl, iff_of_true (.refl s') nofun⟩
  | joined t =>
    unfold Act.succeeds at failed
    rw [bind_ok run] at failed
    cases failed
  | made endpoint t fresh up opening =>
    rcases conclude_cases fresh up opening with ⟨e, t', fails, left⟩ | ⟨t', concludes⟩
    · have step : Progress.next topic w (.offered endpoint.protocol endpoint .inserted)
          (recorded s topic w endpoint t) = .error e t' := bind_error fails
      rw [after_bind_ok run, after_bind_error step] at is
      subst is
      refine ⟨left.subscriptions, left.asBefore_iff.trans ⟨fun undoable other same => ?_, ?_⟩⟩
      · cases same
        exact undoable
      · exact fun undoable => undoable endpoint rfl
    · have step : Progress.next topic w (.offered endpoint.protocol endpoint .inserted)
          (recorded s topic w endpoint t) = .ok _ t' := bind_ok concludes
      unfold Act.succeeds at failed
      rw [bind_ok run, bind_ok step] at failed
      cases failed

/-- A connected node that has no host, so that nothing of it can be announced. -/
def hostless : Station :=
  after connect
    ⟨.new ⟨⟨"n", "", "b", false⟩, default, 0, 0, [.stream]⟩, .empty 0, .empty 7000, .none⟩

/-- Wanting a topic over one protocol. -/
def wishFor (protocol : Protocol) : Wish :=
  ⟨⟨"c", none⟩, .only protocol, .atMostOnce⟩

/-- A subscription over the broker that fails again leaves nothing more. -/
theorem undone_when_repeated :
    let call := Node.subscribe "t" (wishFor .broker).callback (wishFor .broker).protocols
      (wishFor .broker).qos
    let once := after call hostless
    Act.succeeds call once = false ∧ once.AsBefore (after call once) := by
  intro call once
  have failed : Act.succeeds call once = false := by decide +kernel
  refine ⟨failed, (undone_iff (w := wishFor .broker) failed).2.2 fun endpoint opened => ?_⟩
  have is : endpoint = .broker := Option.some.inj (opened.symm.trans (by decide +kernel))
  subst is
  exact ⟨by decide +kernel, fun direct => absurd rfl direct, fun _ _ => by decide +kernel,
    fun _ unheard => absurd (by decide +kernel) unheard⟩

/-- A subscription that cannot be announced leaves its topic to be announced later. -/
theorem not_always_undone :
    ¬∀ (s : Station) (topic : String) (w : Wish),
      Act.succeeds (Node.subscribe topic w.callback w.protocols w.qos) s = false →
      s.AsBefore (after (Node.subscribe topic w.callback w.protocols w.qos) s) := by
  intro always
  have same := (always hostless "t" (wishFor .stream) (by decide +kernel)).advertised
  revert same
  decide +kernel

end Station

end TopicMesh
