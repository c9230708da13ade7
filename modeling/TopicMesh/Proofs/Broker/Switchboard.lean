import TopicMesh.Line
import TopicMesh.Proofs.Broker.Dealings
import TopicMesh.Proofs.Broker.TakeOver

/-!
# All parties of one broker

A **switchboard** is a broker with everybody who uses it: the server with its connections,
and the lines of the clients in the broker's own process.  Anything may happen next at any
connection or line (`Event`).

What an event amounts to is a dealing, or nothing (`dealing?`).  The hub changes by that
dealing and by nothing else (`hub_step`), and so does whom the parties serve
(`serves_step`).  These two lemmas are the only place where events are taken apart; who
deals, deals in the name of the client that it serves (`fits_of_dealing?`).

A switchboard is **apart** if no two parties serve clients of one name, and a run is
**orderly** if it is apart all along.  What holds all along an orderly run is `Sound`.
-/

namespace TopicMesh

namespace Connection.Phase

/-- The client that a connection serves. -/
def client? : Connection.Phase → Option String
  | serving client => some client
  | _ => none

end Connection.Phase

namespace BrokerServer

/-- The client that a connection serves. -/
def clientOn? (s : BrokerServer) (c : Nat) : Option String :=
  (s.phase c).bind Connection.Phase.client?

/-- What a frame amounts to, of a connection that serves a client. -/
def dealingOfFrame? (c : Nat) (client : String) : ClientFrame → Option Dealing
  | .connect .. => none
  | .subscribe filter qos => some (.subscribes (.connection c) client filter qos)
  | .unsubscribe filter => some (.unsubscribes (.connection c) client filter)
  | .publish m => some (.publishes (.connection c) m)
  | .disconnect => some (.leaves (.connection c) client true none)

/-- What the first frame of a connection amounts to. -/
def dealingOfGreeting? (c : Nat) : ClientFrame → Option Dealing
  | .connect client will => some (.arrives (.connection c) client will)
  | _ => none

/-- What it amounts to that something comes over a connection, by the phase of the
connection. -/
def dealingOfReceived? (c : Nat) :
    Option Connection.Phase → Connection.Received → Option Dealing
  | some .greeting, .text text => (ClientFrame.ofText? text).bind (dealingOfGreeting? c)
  | some (.serving client), .text text =>
    (ClientFrame.ofText? text).bind (dealingOfFrame? c client)
  | some (.serving client), .ended => some (.leaves (.connection c) client false none)
  | _, _ => none

/-- What an event at the server amounts to. -/
def dealing? (s : BrokerServer) : Event → Option Dealing
  | .accept => none
  | .receive c r => dealingOfReceived? c (s.phase c) r
  | .flush c => (s.inboxOf c).map .empties

end BrokerServer

namespace Line

/-- What may happen at a line. -/
inductive Event
  /-- The will that goes with the next greeting is set. -/
  | wills (will : Option Will)
  | connect
  | publish (m : Message)
  | subscribe (filter : String) (qos : QoS)
  | unsubscribe (filter : String)
  | disconnect
  /-- The line is lost. -/
  | abort
deriving DecidableEq, Repr

/-- A line and the hub after an event; a call that fails leaves both as they were. -/
def step (line : Line) (hub : Hub) : Event → Line × Hub
  | .wills will => ({ line with will := will }, hub)
  | .connect => line.connect hub
  | .publish m => (line, (line.publish hub m).toOption.getD hub)
  | .subscribe filter qos => (line, (line.subscribe hub filter qos).toOption.getD hub)
  | .unsubscribe filter => (line, (line.unsubscribe hub filter).toOption.getD hub)
  | .disconnect => line.disconnect hub
  | .abort => ((line.abort hub).1, (line.abort hub).2.1)

/-- The client of a line, while it is attached. -/
def client? (line : Line) : Option String :=
  line.inbox.map fun _ => line.client

/-- What an event at a line amounts to. -/
def dealing? (i : Nat) (line : Line) (hub : Hub) : Event → Option Dealing
  | .wills _ => none
  | .connect => if line.inbox.isSome then none else some (.arrives (.line i) line.client line.will)
  | .publish m => if line.isConnected hub then some (.publishes (.line i) m) else none
  | .subscribe filter qos =>
    if line.isConnected hub then some (.subscribes (.line i) line.client filter qos) else none
  | .unsubscribe filter =>
    if line.isConnected hub then some (.unsubscribes (.line i) line.client filter) else none
  | .disconnect => line.inbox.map fun _ => .leaves (.line i) line.client true none
  | .abort => line.inbox.map fun inbox => .leaves (.line i) line.client false (some inbox)

end Line

/-- **A broker with everybody who uses it.** -/
structure Switchboard where
  server : BrokerServer
  lines : Nat → Line

namespace Switchboard

/-- What may happen at a switchboard. -/
inductive Event
  | server (e : BrokerServer.Event)
  | line (i : Nat) (e : Line.Event)
  /-- The owner of an inbox takes the oldest frame. -/
  | take (inbox : Nat)
  /-- Time passes. -/
  | clock (now : Int64)
deriving DecidableEq, Repr

/-- A switchboard to which nobody is connected; the lines have the names of their clients. -/
def start (now : Int64) (names : Nat → String) : Switchboard :=
  ⟨.empty now, fun i => .new (names i)⟩

/-- The hub. -/
def hub (s : Switchboard) : Hub := s.server.hub

/-- Another hub in the place of the old one. -/
def withHub (s : Switchboard) (hub : Hub) : Switchboard :=
  { s with server := { s.server with hub := hub } }

/-- The switchboard after an event. -/
def step (s : Switchboard) : Event → Switchboard
  | .server e => { s with server := s.server.step e }
  | .line i e =>
    { (s.withHub ((s.lines i).step s.hub e).2) with
      lines := Function.update s.lines i ((s.lines i).step s.hub e).1 }
  | .take inbox => s.withHub (s.hub.popped inbox)
  | .clock now => s.withHub { s.hub with now := now }

/-- The switchboard after some events. -/
def run (s : Switchboard) (events : List Event) : Switchboard :=
  events.foldl step s

/-- What an event amounts to. -/
def dealing? (s : Switchboard) : Event → Option Dealing
  | .server e => s.server.dealing? e
  | .line i e => (s.lines i).dealing? i s.hub e
  | .take inbox => some (.takes inbox)
  | .clock now => some (.waits now)

/-- The client in whose name a party deals: a connection that has greeted and not ended,
or a line that is attached. -/
def serves (s : Switchboard) : Party → Option String
  | .connection c => s.server.clientOn? c
  | .line i => (s.lines i).client?

/-- Whether no two parties use one name at a time. -/
def Apart (s : Switchboard) : Prop :=
  ∀ p q client, s.serves p = some client → s.serves q = some client → p = q

/-- Whether no two parties use one name at a time, all along a run. -/
def Orderly (s : Switchboard) (events : List Event) : Prop :=
  ∀ past, past <+: events → (s.run past).Apart

end Switchboard

/-! ## The hub -/

namespace BrokerServer

/-- **At the server, a dealing is all that happens to the hub.** -/
theorem hub_step (s : BrokerServer) (e : Event) :
    (s.step e).hub = (s.dealing? e).elim s.hub fun d => d.on s.hub := by
  cases e with
  | accept => rfl
  | flush c =>
    show (s.flush c).hub = ((s.inboxOf c).map Dealing.empties).elim _ _
    unfold flush inboxOf
    cases (s.connections.get? c).bind Connection.inbox <;> rfl
  | receive c r =>
    show (s.receive c r).hub = (dealingOfReceived? c (s.phase c) r).elim _ _
    unfold receive
    rw [show (s.connections.get? c).map Connection.phase = s.phase c from rfl]
    cases s.phase c with
    | none => rfl
    | some phase =>
      cases phase with
      | ended => rfl
      | greeting =>
        cases r with
        | text text =>
          show (s.greet c text).hub = ((ClientFrame.ofText? text).bind _).elim _ _
          unfold greet
          cases ClientFrame.ofText? text with
          | none => rfl
          | some frame => cases frame <;> rfl
        | _ => rfl
      | serving client =>
        cases r with
        | text text =>
          show (s.serve c client text).hub = ((ClientFrame.ofText? text).bind _).elim _ _
          unfold serve
          cases ClientFrame.ofText? text with
          | none => rfl
          | some frame => cases frame <;> rfl
        | ended => exact Hub.cleanup_eq ..
        | other => rfl

theorem clientOn?_change (s : BrokerServer) (c c' : Nat) (f : Connection → Connection) :
    (s.change c f).clientOn? c' =
      if c = c' then (s.connections.get? c).bind fun k => (f k).phase.client?
      else s.clientOn? c' := by
  unfold clientOn?
  rw [phase_change]
  split
  · rw [Option.bind_map]
    rfl
  · rfl

/-- What comes over a connection amounts to an arrival if the connection waits for a
greeting, and else to a dealing in the name of the client that it serves. -/
theorem dealingOfReceived?_eq_some {c : Nat} {phase : Option Connection.Phase}
    {r : Connection.Received} {d : Dealing} (amounts : dealingOfReceived? c phase r = some d) :
    (∃ client will, phase = some .greeting ∧ d = .arrives (.connection c) client will) ∨
      ∃ client, phase = some (.serving client) ∧
        (d = .leaves (.connection c) client false none ∨
          ∃ frame, dealingOfFrame? c client frame = some d) := by
  unfold dealingOfReceived? at amounts
  split at amounts
  · next text =>
    obtain ⟨frame, -, greets⟩ := Option.bind_eq_some_iff.1 amounts
    cases frame with
    | connect client will => exact .inl ⟨client, will, rfl, (Option.some.inj greets).symm⟩
    | _ => cases greets
  · next client text =>
    obtain ⟨frame, -, does⟩ := Option.bind_eq_some_iff.1 amounts
    exact .inr ⟨client, rfl, .inr ⟨frame, does⟩⟩
  · next client => exact .inr ⟨client, rfl, .inl (Option.some.inj amounts).symm⟩
  · cases amounts

/-- At the server only connections deal. -/
theorem party?_of_dealing? {s : BrokerServer} {e : Event} {d : Dealing}
    (amounts : s.dealing? e = some d) (i : Nat) : d.party? ≠ some (.line i) := by
  cases e with
  | accept => cases amounts
  | flush c =>
    obtain ⟨inbox, -, rfl⟩ := Option.map_eq_some_iff.1 amounts
    intro line
    cases line
  | receive c r =>
    intro line
    rcases dealingOfReceived?_eq_some amounts with
      ⟨client, will, -, rfl⟩ | ⟨client, -, rfl | ⟨frame, does⟩⟩
    · cases line
    · cases line
    · cases frame <;> cases does <;> cases line

/-- A connection that is turned away has served nobody. -/
theorem clientOn?_turnAway {s : BrokerServer} {c : Nat} (greeting : s.phase c = some .greeting)
    (last : List ServerFrame) (c' : Nat) : (s.turnAway c last).clientOn? c' = s.clientOn? c' := by
  refine (clientOn?_change ..).trans ?_
  split
  · next here =>
    subst here
    rw [clientOn?, greeting]
    cases s.connections.get? c <;> rfl
  · rfl

theorem clientOn?_register {s : BrokerServer} {c : Nat} (greeting : s.phase c = some .greeting)
    (client : String) (will : Option Will) (c' : Nat) :
    (s.register c client will).clientOn? c' = if c = c' then some client else s.clientOn? c' := by
  obtain ⟨k, known, -⟩ := Option.map_eq_some_iff.1 greeting
  refine (clientOn?_change ..).trans ?_
  show (if c = c' then (s.connections.get? c).bind _ else _) = _
  rw [known]
  rfl

theorem clientOn?_finish (s : BrokerServer) (c : Nat) (client : String) (graceful : Bool)
    (c' : Nat) :
    (s.finish c client graceful).clientOn? c' = if c = c' then none else s.clientOn? c' := by
  refine (clientOn?_change ..).trans ?_
  show (if c = c' then (s.connections.get? c).bind _ else _) = _
  cases s.connections.get? c <;> rfl

theorem clientOn?_flush (s : BrokerServer) (c' c : Nat) :
    (s.flush c').clientOn? c = s.clientOn? c := by
  unfold flush
  split
  · rfl
  · exact congrArg (Option.bind · _) (phase_change_of_keeps _ c' c fun _ => rfl)

/-- A greeting makes a connection serve a client, if it can be read. -/
theorem clientOn?_greet {s : BrokerServer} {c' : Nat} (greeting : s.phase c' = some .greeting)
    (text : String) (c : Nat) :
    (s.greet c' text).clientOn? c =
      (dealingOfReceived? c' (some .greeting) (.text text)).elim (s.clientOn? c)
        (Dealing.onServes (.connection c) (s.clientOn? c)) := by
  show (s.greet c' text).clientOn? c = ((ClientFrame.ofText? text).bind _).elim _ _
  unfold greet
  cases ClientFrame.ofText? text with
  | none => exact clientOn?_turnAway greeting ..
  | some frame =>
    cases frame with
    | connect client will =>
      simpa [dealingOfGreeting?, Dealing.onServes] using clientOn?_register greeting client will c
    | _ => exact clientOn?_turnAway greeting ..

/-- Of the frames of a client only its leave ends what the connection serves. -/
theorem clientOn?_serve (s : BrokerServer) (c' : Nat) (client text : String) (c : Nat) :
    (s.serve c' client text).clientOn? c =
      (dealingOfReceived? c' (some (.serving client)) (.text text)).elim (s.clientOn? c)
        (Dealing.onServes (.connection c) (s.clientOn? c)) := by
  show (s.serve c' client text).clientOn? c = ((ClientFrame.ofText? text).bind _).elim _ _
  unfold serve
  cases ClientFrame.ofText? text with
  | none => rfl
  | some frame =>
    cases frame with
    | disconnect =>
      simpa [dealingOfFrame?, Dealing.onServes] using clientOn?_finish s c' client true c
    | _ => rfl

/-- A connection serves whom the dealings of the connection make it serve. -/
theorem clientOn?_step (s : BrokerServer) (e : Event)
    (known : ∀ c, s.nextConnection ≤ c → s.phase c = none) (c : Nat) :
    (s.step e).clientOn? c =
      (s.dealing? e).elim (s.clientOn? c) (Dealing.onServes (.connection c) (s.clientOn? c)) := by
  cases e with
  | accept =>
    show ((s.connections.insert s.nextConnection _).get? c |>.map _).bind _ = s.clientOn? c
    rw [KeyMap.get?_insert]
    split
    · next here =>
      rw [clientOn?, known c (Nat.le_of_eq here)]
      rfl
    · rfl
  | flush c' =>
    show (s.flush c').clientOn? c = ((s.inboxOf c').map Dealing.empties).elim _ _
    rw [clientOn?_flush]
    cases s.inboxOf c' <;> rfl
  | receive c' r =>
    show (s.receive c' r).clientOn? c = (dealingOfReceived? c' (s.phase c') r).elim _ _
    unfold receive
    rw [show (s.connections.get? c').map Connection.phase = s.phase c' from rfl]
    cases phase : s.phase c' with
    | none => rfl
    | some p =>
      cases p with
      | ended => rfl
      | greeting =>
        cases r with
        | text text => exact clientOn?_greet phase text c
        | _ => exact clientOn?_turnAway phase ..
      | serving client =>
        cases r with
        | text text => exact clientOn?_serve s c' client text c
        | ended =>
          simpa [dealingOfReceived?, Dealing.onServes] using clientOn?_finish s c' client false c
        | other => rfl

end BrokerServer

/-! ## The lines -/

namespace Line

variable {line : Line} {hub : Hub} {i : Nat}

theorem client?_of_attached {inbox : Nat} (attached : line.inbox = some inbox) :
    line.client? = some line.client := by
  rw [client?, attached]
  rfl

theorem client?_of_free (free : line.inbox = none) : line.client? = none := by
  rw [client?, free]
  rfl

/-- A line that is connected serves its client. -/
theorem client?_of_isConnected (connected : line.isConnected hub = true) :
    line.client? = some line.client := by
  obtain ⟨inbox, attached⟩ := Option.isSome_iff_exists.1 (Bool.and_eq_true_iff.1 connected).1
  exact client?_of_attached attached

/-- Who takes leave has no inbox afterwards. -/
theorem inbox_disconnect (line : Line) (hub : Hub) : (line.disconnect hub).1.inbox = none := by
  unfold disconnect
  cases here : line.inbox with
  | none => exact here
  | some inbox => rfl

theorem inbox_abort (line : Line) (hub : Hub) : (line.abort hub).1.inbox = none := by
  unfold abort
  cases here : line.inbox with
  | none => exact here
  | some inbox => rfl

theorem client_step (line : Line) (hub : Hub) (e : Event) :
    (line.step hub e).1.client = line.client := by
  cases e with
  | connect =>
    show (line.connect hub).1.client = _
    unfold connect
    split <;> rfl
  | disconnect =>
    show (line.disconnect hub).1.client = _
    unfold disconnect
    split <;> rfl
  | abort =>
    show (line.abort hub).1.client = _
    unfold abort
    split <;> rfl
  | _ => rfl

/-- **At a line, a dealing is all that happens to the hub.** -/
theorem hub_step (i : Nat) (line : Line) (hub : Hub) (e : Event) :
    (line.step hub e).2 = (line.dealing? i hub e).elim hub fun d => d.on hub := by
  have asked : ∀ (act : Hub → Hub) (d : Dealing), d.on hub = act hub →
      (line.ifConnected hub act).toOption.getD hub =
        (if line.isConnected hub then some d else none).elim hub fun d => d.on hub := by
    intro act d does
    unfold ifConnected
    cases line.isConnected hub
    · rfl
    · exact does.symm
  cases e with
  | wills will => rfl
  | publish m => exact asked _ _ rfl
  | subscribe filter qos => exact asked _ _ rfl
  | unsubscribe filter => exact asked _ _ rfl
  | connect =>
    show (line.connect hub).2 = (if line.inbox.isSome then none else _).elim _ _
    unfold connect
    cases line.inbox <;> rfl
  | disconnect =>
    show (line.disconnect hub).2 = (line.inbox.map _).elim _ _
    unfold disconnect
    cases line.inbox <;> rfl
  | abort =>
    show (line.abort hub).2.1 = (line.inbox.map _).elim _ _
    unfold abort
    cases line.inbox with
    | none => rfl
    | some inbox => exact congrArg (Hub.closeInbox · inbox) (Hub.cleanup_eq ..)

/-- A line serves whom the dealings of the line make it serve. -/
theorem client?_step (i : Nat) (line : Line) (hub : Hub) (e : Event) :
    (line.step hub e).1.client? =
      (line.dealing? i hub e).elim line.client? (Dealing.onServes (.line i) line.client?) := by
  have asked : ∀ d : Dealing, d.onServes (.line i) line.client? = line.client? →
      line.client? = (if line.isConnected hub then some d else none).elim line.client?
        (Dealing.onServes (.line i) line.client?) := by
    intro d stays
    split
    · exact stays.symm
    · rfl
  cases e with
  | wills will => rfl
  | publish m => exact asked (.publishes ..) rfl
  | subscribe filter qos => exact asked (.subscribes ..) rfl
  | unsubscribe filter => exact asked (.unsubscribes ..) rfl
  | connect =>
    show (line.connect hub).1.client? = (if line.inbox.isSome then none else some _).elim _ _
    unfold connect
    cases here : line.inbox with
    | some inbox => rfl
    | none => exact (if_pos rfl).symm
  | disconnect =>
    refine (client?_of_free (inbox_disconnect line hub)).trans ?_
    show none = (line.inbox.map _).elim _ _
    cases here : line.inbox with
    | none => exact (client?_of_free here).symm
    | some inbox => exact (if_pos rfl).symm
  | abort =>
    refine (client?_of_free (inbox_abort line hub)).trans ?_
    show none = (line.inbox.map _).elim _ _
    cases here : line.inbox with
    | none => exact (client?_of_free here).symm
    | some inbox => exact (if_pos rfl).symm

/-- At a line only that line deals. -/
theorem party?_of_dealing? {e : Event} {d : Dealing} (amounts : line.dealing? i hub e = some d) :
    d.party? = some (.line i) := by
  have asked : ∀ {d' : Dealing}, (if line.isConnected hub then some d' else none) = some d →
      d' = d := fun h => Option.some.inj (Option.ite_none_right_eq_some.1 h).2
  cases e with
  | wills will => cases amounts
  | connect => cases (Option.ite_none_left_eq_some.1 amounts).2; rfl
  | publish m => cases asked amounts; rfl
  | subscribe filter qos => cases asked amounts; rfl
  | unsubscribe filter => cases asked amounts; rfl
  | disconnect =>
    obtain ⟨inbox, -, rfl⟩ := Option.map_eq_some_iff.1 amounts
    rfl
  | abort =>
    obtain ⟨inbox, -, rfl⟩ := Option.map_eq_some_iff.1 amounts
    rfl

/-- A line gets an inbox by its arrival only, and then the next one. -/
theorem inbox_step (i : Nat) {e : Event} {inbox : Nat}
    (attached : (line.step hub e).1.inbox = some inbox) :
    line.inbox = some inbox ∨ inbox = hub.nextInbox ∧
      line.dealing? i hub e = some (.arrives (.line i) line.client line.will) := by
  cases e with
  | connect =>
    change (line.connect hub).1.inbox = some inbox at attached
    unfold connect at attached
    cases here : line.inbox with
    | some inbox' =>
      rw [here] at attached
      exact .inl (here.symm.trans attached)
    | none =>
      rw [here] at attached
      refine .inr ⟨(Option.some.inj attached).symm, if_neg ?_⟩
      rw [here]
      exact Bool.false_ne_true
  | disconnect => cases (inbox_disconnect line hub).symm.trans attached
  | abort => cases (inbox_abort line hub).symm.trans attached
  | _ => exact .inl attached

end Line

namespace Switchboard

variable {s : Switchboard} {e : Event} {d : Dealing} {p : Party} {client : String}

/-! ## Whatever happens -/

/-- **A dealing is all that happens to the hub.** -/
theorem hub_step (s : Switchboard) (e : Event) :
    (s.step e).hub = (s.dealing? e).elim s.hub fun d => d.on s.hub := by
  cases e with
  | server e => exact BrokerServer.hub_step s.server e
  | line i e => exact Line.hub_step i (s.lines i) s.hub e
  | take inbox => rfl
  | clock now => rfl

/-- Whether a dealing is of a party that may deal so: who arrives serves nobody yet, all
others deal in the name of the client that they serve, and a line closes its own inbox. -/
def Fits (s : Switchboard) : Dealing → Prop
  | .arrives p _ _ => s.serves p = none
  | .subscribes p client _ _ => s.serves p = some client
  | .unsubscribes p client _ => s.serves p = some client
  | .publishes p _ => (s.serves p).isSome = true
  | .leaves p client _ shuts => s.serves p = some client ∧
    ∀ inbox, shuts = some inbox → ∃ i, p = .line i ∧ (s.lines i).inbox = some inbox
  | .empties _ => True
  | .takes _ => True
  | .waits _ => True

theorem fits_of_server {e : BrokerServer.Event} (amounts : s.server.dealing? e = some d) :
    s.Fits d := by
  cases e with
  | accept => cases amounts
  | flush c =>
    obtain ⟨inbox, -, rfl⟩ := Option.map_eq_some_iff.1 amounts
    exact trivial
  | receive c r =>
    rcases BrokerServer.dealingOfReceived?_eq_some amounts with
      ⟨client, will, greeting, rfl⟩ | ⟨client, serving, does⟩
    · show (s.server.phase c).bind _ = none
      rw [greeting]
      rfl
    · have serves : s.serves (.connection c) = some client := by
        show (s.server.phase c).bind _ = _
        rw [serving]
        rfl
      rcases does with rfl | ⟨frame, does⟩
      · exact ⟨serves, fun inbox shuts => by cases shuts⟩
      · cases frame with
        | connect => cases does
        | subscribe => cases does; exact serves
        | unsubscribe => cases does; exact serves
        | publish => cases does; exact Option.isSome_iff_exists.2 ⟨client, serves⟩
        | disconnect => cases does; exact ⟨serves, fun inbox shuts => by cases shuts⟩

theorem fits_of_line {i : Nat} {e : Line.Event}
    (amounts : (s.lines i).dealing? i s.hub e = some d) : s.Fits d := by
  have asked : ∀ {d' : Dealing},
      (if (s.lines i).isConnected s.hub then some d' else none) = some d →
      d' = d ∧ s.serves (.line i) = some (s.lines i).client := fun h => by
    obtain ⟨connected, same⟩ := Option.ite_none_right_eq_some.1 h
    exact ⟨Option.some.inj same, Line.client?_of_isConnected connected⟩
  cases e with
  | wills will => cases amounts
  | connect =>
    obtain ⟨free, same⟩ := Option.ite_none_left_eq_some.1 amounts
    cases same
    exact Line.client?_of_free (Option.not_isSome_iff_eq_none.1 free)
  | publish m =>
    obtain ⟨rfl, serves⟩ := asked amounts
    exact Option.isSome_iff_exists.2 ⟨_, serves⟩
  | subscribe filter qos =>
    obtain ⟨rfl, serves⟩ := asked amounts
    exact serves
  | unsubscribe filter =>
    obtain ⟨rfl, serves⟩ := asked amounts
    exact serves
  | disconnect =>
    obtain ⟨inbox, here, rfl⟩ := Option.map_eq_some_iff.1 amounts
    exact ⟨Line.client?_of_attached here, fun inbox shuts => by cases shuts⟩
  | abort =>
    obtain ⟨inbox, here, rfl⟩ := Option.map_eq_some_iff.1 amounts
    exact ⟨Line.client?_of_attached here, fun inbox' shuts => ⟨i, rfl, shuts ▸ here⟩⟩

/-- Who deals, deals in the name of the client that it serves. -/
theorem fits_of_dealing? (amounts : s.dealing? e = some d) : s.Fits d := by
  cases e with
  | server e => exact fits_of_server amounts
  | line i e => exact fits_of_line amounts
  | take inbox => cases amounts; exact trivial
  | clock now => cases amounts; exact trivial

/-- What others deal changes nothing of whom a party serves. -/
theorem elim_onServes_of_ne {amounts : Option Dealing} (served : Option String)
    (others : ∀ d, amounts = some d → d.party? ≠ some p) :
    amounts.elim served (Dealing.onServes p served) = served := by
  cases amounts with
  | none => rfl
  | some d => exact Dealing.onServes_of_ne (others d rfl)

/-- A line serves whom its own dealings make it serve. -/
theorem serves_line_step (s : Switchboard) (e : Event) (i : Nat) :
    (s.step e).serves (.line i) =
      (s.dealing? e).elim (s.serves (.line i))
        (Dealing.onServes (.line i) (s.serves (.line i))) := by
  cases e with
  | server e =>
    exact (elim_onServes_of_ne _ fun d amounts => BrokerServer.party?_of_dealing? amounts i).symm
  | line j e =>
    show (Function.update s.lines j _ i).client? = _
    by_cases here : i = j
    · subst here
      rw [Function.update_self]
      exact Line.client?_step i (s.lines i) s.hub e
    · rw [Function.update_of_ne here]
      refine (elim_onServes_of_ne (s.serves (.line i)) fun d amounts => ?_).symm
      rw [Line.party?_of_dealing? amounts]
      exact fun same => here (Party.line.inj (Option.some.inj same)).symm
  | take inbox => rfl
  | clock now => rfl

/-- **A party serves whom its own dealings make it serve.** -/
theorem serves_step (known : ∀ c, s.server.nextConnection ≤ c → s.server.phase c = none)
    (e : Event) (p : Party) :
    (s.step e).serves p = (s.dealing? e).elim (s.serves p) (Dealing.onServes p (s.serves p)) := by
  cases p with
  | line i => exact serves_line_step s e i
  | connection c =>
    cases e with
    | server e => exact BrokerServer.clientOn?_step s.server e known c
    | line i e =>
      refine (elim_onServes_of_ne (s.serves (.connection c)) fun d amounts => ?_).symm
      rw [Line.party?_of_dealing? amounts]
      exact fun same => by cases same
    | take inbox => rfl
    | clock now => rfl

theorem client_lines_step (s : Switchboard) (e : Event) (i : Nat) :
    ((s.step e).lines i).client = (s.lines i).client := by
  cases e with
  | line j e =>
    show (Function.update s.lines j _ i).client = _
    by_cases here : i = j
    · subst here
      rw [Function.update_self]
      exact Line.client_step ..
    · rw [Function.update_of_ne here]
  | _ => rfl

theorem inbox_lines_step {i inbox : Nat} (attached : ((s.step e).lines i).inbox = some inbox) :
    (s.lines i).inbox = some inbox ∨ inbox = s.hub.nextInbox ∧
      s.dealing? e = some (.arrives (.line i) (s.lines i).client (s.lines i).will) := by
  cases e with
  | line j e =>
    change (Function.update s.lines j _ i).inbox = some inbox at attached
    by_cases here : i = j
    · subst here
      rw [Function.update_self] at attached
      exact Line.inbox_step i attached
    · rw [Function.update_of_ne here] at attached
      exact .inl attached
  | _ => exact .inl attached

/-! ## All along -/

/-- What holds all along an orderly run. -/
structure Sound (s : Switchboard) : Prop where
  hub : s.hub.Sound
  /-- Nothing is known of connections that have not been accepted. -/
  known : ∀ c, s.server.nextConnection ≤ c → s.server.phase c = none
  /-- The inbox of a line is the client's own. -/
  own : ∀ i inbox, (s.lines i).inbox = some inbox →
    s.hub.ownerOf? inbox = some (s.lines i).client

theorem sound_start (now : Int64) (names : Nat → String) : (start now names).Sound where
  hub := Hub.sound_empty now
  known _ _ := rfl
  own _ _ attached := by cases attached

theorem Sound.closesOwn (sound : s.Sound) (fits : s.Fits d) : d.ClosesOwn s.hub := by
  cases d with
  | leaves p client graceful shuts =>
    cases shuts with
    | none => exact trivial
    | some inbox =>
      obtain ⟨serves, own⟩ := fits
      obtain ⟨i, rfl, attached⟩ := own inbox rfl
      have named : some (s.lines i).client = some client :=
        (Line.client?_of_attached attached).symm.trans serves
      exact (sound.own i inbox attached).trans named
  | _ => exact trivial

/-- Nobody closes the inbox of a line that goes on. -/
theorem Sound.shut?_ne (sound : s.Sound) (apart : s.Apart) (amounts : s.dealing? e = some d)
    {i inbox : Nat} (attached : (s.lines i).inbox = some inbox)
    (still : ((s.step e).lines i).inbox = some inbox) : d.shut? ≠ some inbox := by
  intro shuts
  cases d with
  | leaves p client graceful shuts' =>
    cases shuts
    have fits := fits_of_dealing? amounts
    have serves : s.serves (.line i) = some (s.lines i).client := Line.client?_of_attached attached
    -- the inbox is of one client, so the line itself would be the one that leaves
    have named : some client = some (s.lines i).client :=
      (sound.closesOwn fits).symm.trans (sound.own i inbox attached)
    have same : p = .line i := apart p _ _ (fits.1.trans named) serves
    subst same
    have gone : (s.step e).serves (.line i) = none := by
      rw [serves_step sound.known, amounts]
      exact if_pos rfl
    cases gone.symm.trans (Line.client?_of_attached still)
  | _ => cases shuts

theorem Sound.step (sound : s.Sound) (apart : s.Apart) (e : Event) : (s.step e).Sound where
  hub := by
    rw [hub_step]
    cases amounts : s.dealing? e with
    | none => exact sound.hub
    | some d => exact Dealing.sound_on sound.hub (sound.closesOwn (fits_of_dealing? amounts))
  known c := by
    cases e with
    | server e =>
      intro new
      have becomes := BrokerServer.becomes_step s.server e
      exact becomes.known c new (sound.known c (Nat.le_trans becomes.nextConnection new))
    | _ => exact sound.known c
  own i inbox attached := by
    rw [hub_step, client_lines_step]
    rcases inbox_lines_step attached with before | ⟨rfl, arrives⟩
    · cases amounts : s.dealing? e with
      | none => exact sound.own i inbox before
      | some d =>
        exact Dealing.ownerOf?_on sound.hub
          (sound.shut?_ne apart amounts before attached) (sound.own i inbox before)
    · rw [arrives]
      exact Dealing.ownerOf?_arrives

theorem run_append (s : Switchboard) (events more : List Event) :
    s.run (events ++ more) = (s.run events).run more :=
  List.foldl_append ..

theorem Orderly.apart {events : List Event} (orderly : s.Orderly events) : s.Apart :=
  orderly [] List.nil_prefix

theorem Orderly.drop {events more : List Event} (orderly : s.Orderly (events ++ more)) :
    (s.run events).Orderly more := by
  intro past part
  rw [← run_append]
  exact orderly _ ((List.prefix_append_right_inj events).2 part)

theorem Orderly.tail {rest : List Event} (orderly : s.Orderly (e :: rest)) :
    (s.step e).Orderly rest :=
  fun past part => orderly (e :: past) (List.cons_prefix_cons.2 ⟨rfl, part⟩)

theorem Orderly.take {events more : List Event} (orderly : s.Orderly (events ++ more)) :
    s.Orderly events :=
  fun past part => orderly past (part.trans (List.prefix_append ..))

theorem Sound.run {events : List Event} (sound : s.Sound) (orderly : s.Orderly events) :
    (s.run events).Sound := by
  induction events generalizing s with
  | nil => exact sound
  | cons e rest ih => exact ih (sound.step orderly.apart e) orderly.tail

/-! ## A run of the server alone -/

theorem server_run (s : Switchboard) (events : List BrokerServer.Event) :
    s.run (events.map .server) = { s with server := s.server.run events } := by
  induction events generalizing s with
  | nil => rfl
  | cons e rest ih => exact ih (s.step (.server e))

/-- A run of the server alone is orderly if at no time two of its connections serve one
name. -/
theorem orderly_of_server (now : Int64) (names : Nat → String) (events : List BrokerServer.Event)
    (apart : ∀ n, n ≤ events.length →
      let t := (BrokerServer.empty now).run (events.take n)
      ∀ c, c < t.nextConnection → ∀ c', c' < t.nextConnection →
        (t.clientOn? c).isSome = true → t.clientOn? c = t.clientOn? c' → c = c') :
    (start now names).Orderly (events.map .server) := by
  intro past part
  obtain ⟨n, rfl, bound⟩ : ∃ n, past = (events.take n).map Event.server ∧ n ≤ events.length := by
    refine ⟨past.length, ?_, ?_⟩
    · rw [List.map_take]
      exact List.prefix_iff_eq_take.1 part
    · simpa using part.length_le
  rw [server_run]
  have known : ∀ c client,
      ((BrokerServer.empty now).run (events.take n)).clientOn? c = some client →
        c < ((BrokerServer.empty now).run (events.take n)).nextConnection := by
    intro c client serves
    refine Nat.lt_of_not_le fun new => ?_
    have nothing := BrokerServer.unknown_run (events.take n) (.empty now) (fun _ _ => rfl) c new
    rw [BrokerServer.clientOn?, nothing] at serves
    cases serves
  intro p q client serves serves'
  cases p with
  | line i => cases serves
  | connection c =>
    cases q with
    | line i => cases serves'
    | connection c' =>
      exact congrArg Party.connection (apart n bound c (known c client serves) c'
        (known c' client serves') (Option.isSome_iff_exists.2 ⟨client, serves⟩)
        (serves.trans serves'.symm))

end Switchboard

end TopicMesh
