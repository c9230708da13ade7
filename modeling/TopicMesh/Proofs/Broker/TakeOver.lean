import TopicMesh.Broker.Server
import TopicMesh.Proofs.Broker.Posting

/-!
# Connections that share a client's name

The server knows a client by its name only.  Whatever a connection does, it does in
the name of its client: a subscription, the end of one, and the clean-up when the
connection ends.  So two connections that serve clients of one name act on the same
registration and the same subscriptions.

`deed?` reads off a state and an event what a connection does in its client's name,
and `history` is the list of these deeds over a run.  A deed is all that an event does
to a client's registration, to the listings and to the phases (`Becomes`,
`becomes_step`); from this the run lemmas read what a whole history has made of them.
`spent?` is the registration whose will an event publishes: who ends a connection
publishes the will of what is spent, and no other (`hub_of_left`).

**Who takes a name over keeps it exactly if the others let go of it quietly**
(`takeover_undisturbed_iff`): the newer connection's registration, its filters and
its will are undisturbed if and only if no older connection of that name has ended
since and none has taken back a filter that the newer one holds.
-/

namespace TopicMesh

namespace BrokerServer

/-- What a connection does in the name of its client. -/
inductive Deed
  /-- It registers the client. -/
  | registered (c : Nat) (client : String) (will : Option Will)
  /-- It subscribes a valid filter. -/
  | subscribed (c : Nat) (client filter : String)
  | unsubscribed (c : Nat) (client filter : String)
  /-- It ends, and what the client has at the broker is cleaned up. -/
  | left (c : Nat) (client : String) (graceful : Bool)
deriving DecidableEq, Repr

/-- How far a connection has come. -/
def phase (s : BrokerServer) (c : Nat) : Option Connection.Phase :=
  (s.connections.get? c).map Connection.phase

/-- The inbox whose frames are sent on a connection. -/
def inboxOf (s : BrokerServer) (c : Nat) : Option Nat :=
  (s.connections.get? c).bind Connection.inbox

/-- What the first frame of a connection does. -/
def deedOfGreeting? (c : Nat) : ClientFrame → Option Deed
  | .connect client will => some (.registered c client will)
  | _ => none

/-- Whether a deed registers a client of a name. -/
def Deed.takes (client : String) : Deed → Bool
  | .registered _ other _ => other = client
  | _ => false

/-- Whether a deed ends a connection that serves a client of a name. -/
def Deed.leaves (client : String) : Deed → Bool
  | .left _ other _ => other = client
  | _ => false

/-- What a deed says of a client's subscription of a filter, and which connection
says it. -/
def Deed.word? (client filter : String) : Deed → Option (Nat × Bool)
  | .subscribed c other f => if other = client ∧ f = filter then some (c, true) else none
  | .unsubscribed c other f => if other = client ∧ f = filter then some (c, false) else none
  | _ => none

/-- What a frame of a connection that serves a client does. -/
def deedOfFrame? (c : Nat) (client : String) : ClientFrame → Option Deed
  | .subscribe filter _ =>
    if Filter.isValid filter then some (.subscribed c client filter) else none
  | .unsubscribe filter => some (.unsubscribed c client filter)
  | .disconnect => some (.left c client true)
  | _ => none

/-- What comes over a connection does in the name of its client, if it does
anything, by the phase of the connection. -/
def deedOfReceived? (c : Nat) : Option Connection.Phase → Connection.Received → Option Deed
  | some .greeting, .text text => (ClientFrame.ofText? text).bind (deedOfGreeting? c)
  | some (.serving client), .text text => (ClientFrame.ofText? text).bind (deedOfFrame? c client)
  | some (.serving client), .ended => some (.left c client false)
  | _, _ => none

/-- What an event does in the name of a client, if it does anything. -/
def deed? (s : BrokerServer) : Event → Option Deed
  | .receive c r => deedOfReceived? c (s.phase c) r
  | _ => none

/-- The deeds of a run, oldest first. -/
def history (s : BrokerServer) : List Event → List Deed
  | [] => []
  | e :: rest => (s.deed? e).toList ++ (s.step e).history rest

/-- The registration under a client's name. -/
def registration (s : BrokerServer) (client : String) : Option (Registration Nat) :=
  s.hub.broker.clients.get? client

/-- Whether a filter lists a client. -/
def lists (s : BrokerServer) (filter client : String) : Bool :=
  s.hub.broker.subscribed filter client

/-- The registration whose will an event publishes, with the client's name: the one
under the name of a client whose connection ends without a farewell. -/
def spent? (s : BrokerServer) (e : Event) : Option (String × Registration Nat) :=
  match s.deed? e with
  | some (.left _ client false) =>
    ((s.registration client).filter fun r => r.will.isSome).map fun r => (client, r)
  | _ => none

/-- The registrations whose wills were published in a run, oldest first. -/
def spent (s : BrokerServer) : List Event → List (String × Registration Nat)
  | [] => []
  | e :: rest => (s.spent? e).toList ++ (s.step e).spent rest

/-! ## One event -/

/-- What a deed makes of the registration under a name; `inbox` is the number of the
next inbox. -/
def Deed.onRegistration (inbox : Nat) (client : String) (r : Option (Registration Nat)) :
    Deed → Option (Registration Nat)
  | .registered _ other will => if other = client then some ⟨inbox, will⟩ else r
  | .left _ other _ => if other = client then none else r
  | _ => r

/-- What a deed makes of a filter's listing of a client. -/
def Deed.onListing (filter client : String) (listed : Bool) : Deed → Bool
  | .subscribed _ other f => listed || decide (f = filter ∧ other = client)
  | .unsubscribed _ other f => listed && !decide (f = filter ∧ other = client)
  | .left _ other _ => listed && !decide (other = client)
  | .registered .. => listed

/-- What a deed makes of the phase of a connection that has greeted. -/
def Deed.onPhase (c : Nat) (p : Option Connection.Phase) : Deed → Option Connection.Phase
  | .left c' _ _ => if c' = c then some .ended else p
  | _ => p

/-- What becomes of a server by a deed, as far as names are concerned: the
registrations, the listings, and the phases of connections that have greeted. -/
structure Becomes (s s' : BrokerServer) (d : Option Deed) : Prop where
  registration : ∀ client, s'.registration client =
    d.elim (s.registration client)
      (Deed.onRegistration s.hub.nextInbox client (s.registration client))
  lists : ∀ filter client, s'.lists filter client =
    d.elim (s.lists filter client) (Deed.onListing filter client (s.lists filter client))
  phase : ∀ c, c < s.nextConnection → s.phase c ≠ some .greeting → s'.phase c =
    d.elim (s.phase c) (Deed.onPhase c (s.phase c))
  inbox : ∀ c, c < s.nextConnection → s.phase c ≠ some .greeting → s'.inboxOf c = s.inboxOf c
  known : ∀ c, s'.nextConnection ≤ c → s.phase c = none → s'.phase c = none
  nextConnection : s.nextConnection ≤ s'.nextConnection

theorem phase_change (s : BrokerServer) (c c' : Nat) (f : Connection → Connection) :
    (s.change c f).phase c' =
      if c = c' then (s.connections.get? c).map fun k => (f k).phase else s.phase c' := by
  unfold phase change
  rw [KeyMap.get?_modify]
  by_cases h : c = c'
  · subst h; simp [Function.comp_def]
  · simp [h]

/-- A change of a connection that keeps its phase changes no phase. -/
theorem phase_change_of_keeps (s : BrokerServer) (c c' : Nat) {f : Connection → Connection}
    (keeps : ∀ k, (f k).phase = k.phase) : (s.change c f).phase c' = s.phase c' := by
  rw [phase_change]
  split
  · next h => subst h; simp only [keeps]; rfl
  · rfl

theorem phase_change_of_none {s : BrokerServer} {c c' : Nat} {f : Connection → Connection}
    (h : s.phase c' = none) : (s.change c f).phase c' = none := by
  rw [phase_change]
  split
  · next hc =>
    subst hc
    simpa [phase] using h
  · exact h

theorem inboxOf_change_of_keeps (s : BrokerServer) (c c' : Nat) {f : Connection → Connection}
    (keeps : c = c' → ∀ k, (f k).inbox = k.inbox) : (s.change c f).inboxOf c' = s.inboxOf c' := by
  unfold inboxOf change
  rw [KeyMap.get?_modify]
  split
  · next hc =>
    subst hc
    have same : Connection.inbox ∘ f = Connection.inbox := funext fun k => keeps rfl k
    rw [Option.bind_map, same]
  · rfl

theorem becomes_self (s : BrokerServer) : Becomes s s none :=
  ⟨fun _ => rfl, fun _ _ => rfl, fun _ _ _ => rfl, fun _ _ _ => rfl, fun _ _ h => h,
    Nat.le_refl _⟩

/-- What is done at the hub alone touches no connection. -/
theorem becomes_of_hub {s : BrokerServer} {h : Hub} {d : Option Deed}
    (registration : ∀ client, h.broker.clients.get? client =
      d.elim (s.registration client)
        (Deed.onRegistration s.hub.nextInbox client (s.registration client)))
    (lists : ∀ filter client, h.broker.subscribed filter client =
      d.elim (s.lists filter client) (Deed.onListing filter client (s.lists filter client)))
    (stays : ∀ c p, d.elim p (Deed.onPhase c p) = p) : Becomes s { s with hub := h } d :=
  ⟨registration, lists, fun c _ _ => (stays c _).symm, fun _ _ _ => rfl, fun _ _ h => h,
    Nat.le_refl _⟩

theorem becomes_accept (s : BrokerServer) : Becomes s s.accept.1 none where
  registration _ := rfl
  lists _ _ := rfl
  phase c hc _ := by
    show ((s.connections.insert s.nextConnection _).get? c).map _ = s.phase c
    rw [KeyMap.get?_insert, if_neg (Nat.ne_of_gt hc)]
    rfl
  inbox c hc _ := by
    show ((s.connections.insert s.nextConnection _).get? c).bind _ = s.inboxOf c
    rw [KeyMap.get?_insert, if_neg (Nat.ne_of_gt hc)]
    rfl
  known c hc h := by
    show ((s.connections.insert s.nextConnection _).get? c).map _ = none
    rw [KeyMap.get?_insert, if_neg (Nat.ne_of_lt hc)]
    exact h
  nextConnection := Nat.le_succ _

theorem becomes_turnAway {s : BrokerServer} {c : Nat} (last : List ServerFrame)
    (greeting : s.phase c = some .greeting) : Becomes s (s.turnAway c last) none where
  registration _ := rfl
  lists _ _ := rfl
  phase c' _ h := by
    have hc : c ≠ c' := fun e => h (e ▸ greeting)
    rw [turnAway, phase_change, if_neg hc]
    rfl
  inbox c' _ _ := inboxOf_change_of_keeps _ _ _ fun _ _ => rfl
  known c' _ h := phase_change_of_none h
  nextConnection := Nat.le_refl _

theorem becomes_register {s : BrokerServer} {c : Nat} (client : String) (will : Option Will)
    (greeting : s.phase c = some .greeting) :
    Becomes s (s.register c client will) (some (.registered c client will)) where
  registration other := by
    show (s.hub.broker.clients.insert client _).get? other = _
    rw [KeyMap.get?_insert]
    rfl
  lists _ _ := rfl
  phase c' _ h := by
    have hc : c ≠ c' := fun e => h (e ▸ greeting)
    show (BrokerServer.change _ c _).phase c' = _
    rw [phase_change, if_neg hc]
    rfl
  inbox c' _ h := by
    have hc : c ≠ c' := fun e => h (e ▸ greeting)
    show (BrokerServer.change _ c _).inboxOf c' = _
    exact inboxOf_change_of_keeps _ _ _ fun e => absurd e hc
  known c' _ h := phase_change_of_none h
  nextConnection := Nat.le_refl _

theorem becomes_greet {s : BrokerServer} {c : Nat} (text : String)
    (greeting : s.phase c = some .greeting) :
    Becomes s (s.greet c text) ((ClientFrame.ofText? text).bind (deedOfGreeting? c)) := by
  unfold greet
  cases ClientFrame.ofText? text with
  | none => exact becomes_turnAway _ greeting
  | some frame =>
    cases frame with
    | connect client will => exact becomes_register client will greeting
    | _ => exact becomes_turnAway _ greeting

theorem becomes_finish {s : BrokerServer} {c : Nat} {client : String} (graceful : Bool)
    (serving : s.phase c = some (.serving client)) :
    Becomes s (s.finish c client graceful) (some (.left c client graceful)) where
  registration other := by
    show (s.hub.cleanup client graceful).broker.clients.get? other = _
    rw [Hub.broker_cleanup, Broker.clients_cleanup, KeyMap.get?_erase]
    rfl
  lists filter other := Broker.subscribed_cleanup ..
  phase c' _ _ := by
    show (BrokerServer.change _ c _).phase c' = _
    rw [phase_change]
    by_cases hc : c = c'
    · subst hc
      obtain ⟨k, hk, -⟩ := Option.map_eq_some_iff.1 serving
      simp [Deed.onPhase, hk]
    · simp [hc, Deed.onPhase, phase]
  inbox c' _ _ := inboxOf_change_of_keeps _ _ _ fun _ _ => rfl
  known c' _ h := phase_change_of_none h
  nextConnection := Nat.le_refl _

theorem becomes_flush (s : BrokerServer) (c : Nat) : Becomes s (s.flush c) none := by
  unfold flush
  split
  · exact becomes_self s
  · next inbox _ =>
    exact
      { registration := fun client => by
          show (s.hub.take inbox).1.broker.clients.get? client = _
          rw [Hub.broker_take]
          rfl
        lists := fun filter client => by
          show (s.hub.take inbox).1.broker.subscribed filter client = _
          rw [Hub.broker_take]
          rfl
        phase := fun c' _ _ => phase_change_of_keeps _ _ _ fun _ => rfl
        inbox := fun c' _ _ => inboxOf_change_of_keeps _ _ _ fun _ _ => rfl
        known := fun c' _ h => phase_change_of_none h
        nextConnection := Nat.le_refl _ }

theorem becomes_serve {s : BrokerServer} {c : Nat} {client : String} (text : String)
    (serving : s.phase c = some (.serving client)) :
    Becomes s (s.serve c client text)
      ((ClientFrame.ofText? text).bind (deedOfFrame? c client)) := by
  unfold serve
  cases ClientFrame.ofText? text with
  | none => exact becomes_self s
  | some frame =>
    cases frame with
    | connect other will => exact becomes_self s
    | publish m => exact becomes_of_hub (fun _ => rfl) (fun _ _ => rfl) fun _ _ => rfl
    | disconnect => exact becomes_finish true serving
    | unsubscribe filter =>
      exact becomes_of_hub (fun _ => rfl) (fun f other => Broker.subscribed_unsubscribe ..)
        fun _ _ => rfl
    | subscribe filter qos =>
      have clients : ∀ other, (s.hub.subscribe filter client qos).broker.clients.get? other =
          s.registration other := fun other => by
        rw [Hub.broker_subscribe, Broker.clients_subscribe]
        rfl
      have listed := s.hub.broker.subscribed_subscribe filter client qos
      by_cases hv : Filter.isValid filter = true
      · simp only [Option.bind_some, deedOfFrame?, hv, if_true]
        refine becomes_of_hub clients (fun f other => (listed f other).trans ?_) fun _ _ => rfl
        simp [hv, Deed.onListing, BrokerServer.lists]
      · simp only [Option.bind_some, deedOfFrame?, hv]
        refine becomes_of_hub clients (fun f other => (listed f other).trans ?_) fun _ _ => rfl
        simp [hv, BrokerServer.lists]

/-- **A deed is all that an event does to names.** -/
theorem becomes_step (s : BrokerServer) (e : Event) : Becomes s (s.step e) (s.deed? e) := by
  cases e with
  | accept => exact becomes_accept s
  | flush c => exact becomes_flush s c
  | receive c r =>
    have phase_eq : (s.connections.get? c).map Connection.phase = s.phase c := rfl
    show Becomes s (s.receive c r) (deedOfReceived? c (s.phase c) r)
    unfold receive
    rw [phase_eq]
    cases hp : s.phase c with
    | none => exact becomes_self s
    | some p =>
      cases p with
      | ended => exact becomes_self s
      | greeting =>
        cases r with
        | other => exact becomes_turnAway [] hp
        | ended => exact becomes_turnAway [] hp
        | text t => exact becomes_greet t hp
      | serving client =>
        cases r with
        | other => exact becomes_self s
        | ended => exact becomes_finish false hp
        | text t => exact becomes_serve t hp

/-! ## Wills that are published -/

/-- The end of a connection is a clean-up in the name of its client. -/
theorem step_of_left {s : BrokerServer} {e : Event} {c : Nat} {client : String} {g : Bool}
    (left : s.deed? e = some (.left c client g)) : s.step e = s.finish c client g := by
  cases e with
  | accept => cases left
  | flush => cases left
  | receive c' r =>
    change deedOfReceived? c' (s.phase c') r = _ at left
    show s.receive c' r = _
    unfold receive
    rw [show (s.connections.get? c').map Connection.phase = s.phase c' from rfl]
    unfold deedOfReceived? at left
    split at left
    · next text =>
      obtain ⟨frame, -, greets⟩ := Option.bind_eq_some_iff.1 left
      cases frame <;> cases greets
    · next serves text phase =>
      obtain ⟨frame, read, does⟩ := Option.bind_eq_some_iff.1 left
      rw [phase]
      show s.serve c' serves text = _
      unfold serve
      rw [read]
      cases frame with
      | disconnect =>
        cases does
        rfl
      | subscribe filter qos =>
        obtain ⟨-, does⟩ := Option.ite_none_right_eq_some.1 does
        cases does
      | _ => cases does
    · next serves phase =>
      cases left
      rw [phase]
    · cases left

/-- The will of the registration that is spent when a connection ends. -/
theorem will_of_spent {s : BrokerServer} {e : Event} {c : Nat} {client : String} {g : Bool}
    (left : s.deed? e = some (.left c client g)) :
    ((s.spent? e).bind fun spent => spent.2.will) =
      if g then none else (s.registration client).bind Registration.will := by
  unfold spent?
  rw [left]
  cases g with
  | true => rfl
  | false =>
    dsimp only
    cases s.registration client with
    | none => rfl
    | some r =>
      obtain ⟨inbox, will⟩ := r
      cases will <;> rfl

/-- **Who ends publishes the will of the registration that is spent, and no other**, after
all else is cleaned up. -/
theorem hub_of_left {s : BrokerServer} {e : Event} {c : Nat} {client : String} {g : Bool}
    (left : s.deed? e = some (.left c client g)) :
    (s.step e).hub =
      match (s.spent? e).bind fun spent => spent.2.will with
      | none => s.hub.cleanup client true
      | some w => (s.hub.cleanup client true).publish w.toMessage := by
  rw [step_of_left left, will_of_spent left]
  show s.hub.cleanup client g = _
  cases g with
  | true => rfl
  | false => exact Hub.cleanup_ungraceful ..

/-! ## Whole runs -/

theorem history_cons (s : BrokerServer) (e : Event) (rest : List Event) :
    s.history (e :: rest) = (s.deed? e).toList ++ (s.step e).history rest := rfl

theorem run_cons (s : BrokerServer) (e : Event) (rest : List Event) :
    s.run (e :: rest) = (s.step e).run rest := rfl

/-- A listing after a run is what the deeds of the run made of it. -/
theorem lists_run (filter client : String) (events : List Event) (s : BrokerServer) :
    (s.run events).lists filter client =
      (s.history events).foldl (Deed.onListing filter client) (s.lists filter client) := by
  induction events generalizing s with
  | nil => rfl
  | cons e rest ih =>
    rw [run_cons, history_cons, List.foldl_append, ih, (becomes_step s e).lists]
    cases s.deed? e <;> rfl

/-- A registration that no later one replaces stays until a connection of its name
ends. -/
theorem registration_run {client : String} (events : List Event) (s : BrokerServer)
    (newest : ∀ d ∈ s.history events, d.takes client = false) :
    (s.run events).registration client =
      if (s.history events).any (Deed.leaves client) then none else s.registration client := by
  induction events generalizing s with
  | nil => rfl
  | cons e rest ih =>
    rw [history_cons] at newest
    rw [run_cons, history_cons, ih _ fun d h => newest d (List.mem_append_right _ h),
      (becomes_step s e).registration client, List.any_append]
    cases hd : s.deed? e with
    | none => rfl
    | some d =>
      have new : d.takes client = false := newest d (by simp [hd])
      cases d with
      | registered c other w =>
        have : other ≠ client := by simpa [Deed.takes] using new
        simp [Deed.onRegistration, Deed.leaves, this]
      | left c other g =>
        by_cases h : other = client <;> simp [Deed.onRegistration, Deed.leaves, h]
      | _ => simp [Deed.onRegistration, Deed.leaves]

/-- Without a connection of a client's name ending, nobody's will is published in
that name. -/
theorem not_mem_spent_run {client : String} (events : List Event) (s : BrokerServer)
    (stays : (s.history events).any (Deed.leaves client) = false) (r : Registration Nat) :
    (client, r) ∉ s.spent events := by
  induction events generalizing s with
  | nil => exact List.not_mem_nil
  | cons e rest ih =>
    rw [history_cons, List.any_append, Bool.or_eq_false_iff] at stays
    refine List.not_mem_append (fun h => ?_) (ih _ stays.2)
    have hs : s.spent? e = some (client, r) := Option.mem_toList.1 h
    unfold spent? at hs
    split at hs
    · next c other hd =>
      obtain ⟨r', -, he⟩ := Option.map_eq_some_iff.1 hs
      cases he
      simp [hd, Deed.leaves] at stays
    · cases hs

/-- Only connections that were accepted have a phase. -/
theorem unknown_run (events : List Event) (s : BrokerServer)
    (unknown : ∀ c, s.nextConnection ≤ c → s.phase c = none) (c : Nat)
    (h : (s.run events).nextConnection ≤ c) : (s.run events).phase c = none := by
  induction events generalizing s with
  | nil => exact unknown c h
  | cons e rest ih =>
    have becomes := becomes_step s e
    exact ih (s.step e)
      (fun c' h' => becomes.known c' h' (unknown c' (Nat.le_trans becomes.nextConnection h'))) h

/-- A connection that has ended stays so. -/
theorem ended_run {c : Nat} (events : List Event) (s : BrokerServer)
    (known : c < s.nextConnection) (ended : s.phase c = some .ended) :
    (s.run events).phase c = some .ended := by
  induction events generalizing s with
  | nil => exact ended
  | cons e rest ih =>
    have becomes := becomes_step s e
    refine ih (s.step e) (Nat.lt_of_lt_of_le known becomes.nextConnection) ?_
    rw [becomes.phase c known (by simp [ended]), ended]
    cases s.deed? e with
    | none => rfl
    | some d =>
      cases d with
      | left c' client g => exact ite_self _
      | _ => rfl

/-- A connection that serves a client keeps its inbox until it has ended. -/
theorem inboxOf_run {c : Nat} {client : String} (events : List Event) (s : BrokerServer)
    (known : c < s.nextConnection) (serving : s.phase c = some (.serving client))
    (open_ : (s.run events).phase c ≠ some .ended) :
    (s.run events).inboxOf c = s.inboxOf c := by
  induction events generalizing s with
  | nil => rfl
  | cons e rest ih =>
    have becomes := becomes_step s e
    have greeted : s.phase c ≠ some .greeting := by simp [serving]
    have known' := Nat.lt_of_lt_of_le known becomes.nextConnection
    have goes : (s.step e).phase c = some (.serving client) ∨ (s.step e).phase c = some .ended := by
      rw [becomes.phase c known greeted, serving]
      cases s.deed? e with
      | none => exact .inl rfl
      | some d =>
        cases d with
        | left c' other g =>
          by_cases h : c' = c
          · exact .inr (if_pos h)
          · exact .inl (if_neg h)
        | _ => exact .inl rfl
    rcases goes with goes | goes
    · exact (ih _ known' goes open_).trans (becomes.inbox c known greeted)
    · exact absurd (ended_run rest _ known' goes) open_

/-! ## What was said of a filter -/

/-- The words on a subscription that were said in some deeds, oldest first, each with
the connection that said it. -/
def words (client filter : String) (deeds : List Deed) : List (Nat × Bool) :=
  deeds.filterMap (Deed.word? client filter)

/-- Whether the last of some words is that a filter is subscribed. -/
def lastIsYes (ws : List (Nat × Bool)) : Prop :=
  ws.getLast?.map Prod.snd = some true

/-- Whether a connection has subscribed a filter and not taken that back. -/
def Holds (c : Nat) (client filter : String) (deeds : List Deed) : Prop :=
  lastIsYes ((words client filter deeds).filter fun w => w.1 = c)

/-- Whether the last word on a filter, whoever said it, is that it is subscribed. -/
def Stands (client filter : String) (deeds : List Deed) : Prop :=
  lastIsYes (words client filter deeds)

theorem words_ne_nil_of_holds {c : Nat} {client filter : String} {deeds : List Deed}
    (holds : Holds c client filter deeds) : words client filter deeds ≠ [] := by
  intro h
  simp [Holds, h, lastIsYes] at holds

/-- As long as no connection of a client's name ends, a filter lists the client by the
last word on it. -/
theorem foldl_onListing {client filter : String} (deeds : List Deed) (listed : Bool)
    (stays : deeds.any (Deed.leaves client) = false) :
    deeds.foldl (Deed.onListing filter client) listed =
      ((words client filter deeds).getLast?.map Prod.snd).getD listed := by
  induction deeds generalizing listed with
  | nil => rfl
  | cons d rest ih =>
    rw [List.any_cons, Bool.or_eq_false_iff] at stays
    rw [List.foldl_cons, ih _ stays.2]
    unfold words
    rw [List.filterMap_cons]
    -- a word on this filter outdoes what was there; any other deed leaves it
    cases hw : d.word? client filter with
    | none =>
      have same : d.onListing filter client listed = listed := by
        cases d with
        | registered => rfl
        | subscribed c other f =>
          have : ¬(f = filter ∧ other = client) := by simpa [Deed.word?, and_comm] using hw
          simp [Deed.onListing, this]
        | unsubscribed c other f =>
          have : ¬(f = filter ∧ other = client) := by simpa [Deed.word?, and_comm] using hw
          simp [Deed.onListing, this]
        | left c other g =>
          have : other ≠ client := by simpa [Deed.leaves] using stays.1
          simp [Deed.onListing, this]
      rw [same]
    | some w =>
      have said : d.onListing filter client listed = w.2 := by
        cases d with
        | registered => cases hw
        | left => cases hw
        | subscribed c other f =>
          obtain ⟨⟨rfl, rfl⟩, rfl⟩ := by simpa [Deed.word?] using hw
          simp [Deed.onListing]
        | unsubscribed c other f =>
          obtain ⟨⟨rfl, rfl⟩, rfl⟩ := by simpa [Deed.word?] using hw
          simp [Deed.onListing]
      rw [said, List.getLast?_cons]
      cases (rest.filterMap (Deed.word? client filter)).getLast? <;> rfl

/-- A filter that a connection holds lists the client just if that is the last word
on it. -/
theorem lists_run_iff {c : Nat} {client filter : String} {s : BrokerServer} {events : List Event}
    (stays : (s.history events).any (Deed.leaves client) = false)
    (holds : Holds c client filter (s.history events)) :
    (s.run events).lists filter client = true ↔ Stands client filter (s.history events) := by
  rw [lists_run, foldl_onListing _ _ stays]
  unfold Stands lastIsYes
  cases h : (words client filter (s.history events)).getLast? with
  | none => exact absurd (List.getLast?_eq_none_iff.1 h) (words_ne_nil_of_holds holds)
  | some w => simp

/-! ## Taking a name over -/

/-- Whether what a connection has at the broker in its client's name is undisturbed
after some events: the registration is the connection's, with its inbox and its will,
its filters list the client, and its will has not been published, for what is spent is
what is published (`hub_of_left`). -/
structure Undisturbed (s : BrokerServer) (events : List Event) (c : Nat) (client : String)
    (will : Option Will) : Prop where
  registration : ∃ inbox, (s.run events).inboxOf c = some inbox ∧
    (s.run events).registration client = some ⟨inbox, will⟩
  lists : ∀ filter, Holds c client filter (s.history events) →
    (s.run events).lists filter client = true
  kept : ∀ inbox, s.inboxOf c = some inbox → (client, ⟨inbox, will⟩) ∉ s.spent events

/-- What greeting makes of a connection. -/
theorem greeted {s : BrokerServer} {c : Nat} {client text : String} {will : Option Will}
    (greeting : s.phase c = some .greeting)
    (parsed : ClientFrame.ofText? text = some (.connect client will)) :
    let t := s.step (.receive c (.text text))
    t.phase c = some (.serving client) ∧ t.inboxOf c = some s.hub.nextInbox ∧
      t.registration client = some ⟨s.hub.nextInbox, will⟩ := by
  have is_register : s.step (.receive c (.text text)) = s.register c client will := by
    show s.receive c (.text text) = _
    unfold receive
    rw [show (s.connections.get? c).map Connection.phase = _ from greeting]
    show s.greet c text = _
    unfold greet
    rw [parsed]
  rw [is_register]
  obtain ⟨k, hk, -⟩ := Option.map_eq_some_iff.1 greeting
  refine ⟨?_, ?_, ?_⟩
  · show (BrokerServer.change _ c _).phase c = _
    rw [phase_change, if_pos rfl]
    simp [hk]
  · show (((s.connections.modify c _).get? c).bind Connection.inbox) = _
    rw [KeyMap.get?_modify, if_pos rfl]
    simp [hk]
  · exact (KeyMap.get?_insert ..).trans (if_pos rfl)

/-- **Who takes a name over keeps it exactly if the others let go of it quietly.**
A connection greets in the name of a client, has not ended, and nobody has greeted in
that name since.  Then what it has at the broker is undisturbed if and only if no
connection that serves the name has ended since, and on each filter that it holds
nobody else had the last word. -/
theorem takeover_undisturbed_iff (now : Int64) (before after : List Event) (c : Nat)
    (client text : String) (will : Option Will)
    (greeting : ((empty now).run before).phase c = some .greeting)
    (parsed : ClientFrame.ofText? text = some (.connect client will)) :
    let t := (empty now).run (before ++ [.receive c (.text text)])
    (t.run after).phase c ≠ some .ended →
    (∀ d ∈ t.history after, d.takes client = false) →
    (Undisturbed t after c client will ↔
      (t.history after).any (Deed.leaves client) = false ∧
        ∀ filter, Holds c client filter (t.history after) →
          Stands client filter (t.history after)) := by
  intro t open_ newest
  have split_run : t = ((empty now).run before).step (.receive c (.text text)) :=
    List.foldl_append ..
  obtain ⟨serving, inbox, registered⟩ := greeted greeting parsed
  rw [← split_run] at serving inbox registered
  have known : c < t.nextConnection := by
    refine Nat.lt_of_not_le fun h => ?_
    have := unknown_run _ (empty now) (fun _ _ => rfl) c h
    exact absurd (serving.symm.trans this) (by simp)
  have inbox' := (inboxOf_run after t known serving open_).trans inbox
  have registration := registration_run after t newest
  constructor
  · intro undisturbed
    obtain ⟨i, hi, hr⟩ := undisturbed.registration
    have stays : (t.history after).any (Deed.leaves client) = false := by
      rw [registration] at hr
      cases h : (t.history after).any (Deed.leaves client) with
      | false => rfl
      | true => simp [h] at hr
    exact ⟨stays, fun filter holds =>
      (lists_run_iff stays holds).1 (undisturbed.lists filter holds)⟩
  · rintro ⟨stays, words_stand⟩
    refine ⟨⟨_, inbox', ?_⟩, fun filter holds => ?_, fun r _ => not_mem_spent_run after t stays _⟩
    · rw [registration, stays]
      exact registered
    · exact (lists_run_iff stays holds).2 (words_stand filter holds)

/-- Two connections are accepted, and the first greets in the name `x`. -/
def rivals : List Event :=
  [.accept, .receive 0 (.text (ClientFrame.connect "x" none).toText), .accept]

/-- The will of the second connection. -/
def lastWords : Will := ⟨"w", [1], .atMostOnce, false⟩

/-- The second connection greets in the same name, with a will. -/
def greetsToo : String := (ClientFrame.connect "x" (some lastWords)).toText

/-- It subscribes a filter. -/
def subscribesToo : Event := .receive 1 (.text (ClientFrame.subscribe "a" .atMostOnce).toText)

/-- The server hangs up the first connection, and nothing is disturbed. -/
theorem takeover_undisturbed_of_rivals :
    let t := (empty 7).run (rivals ++ [.receive 1 (.text greetsToo)])
    (t.run [subscribesToo, .flush 0]).phase 1 ≠ some .ended ∧
      (∀ d ∈ t.history [subscribesToo, .flush 0], d.takes "x" = false) ∧
      Undisturbed t [subscribesToo, .flush 0] 1 "x" (some lastWords) := by
  intro t
  obtain ⟨greeting, parsed, open_, deeds⟩ : ((empty 7).run rivals).phase 1 = some .greeting ∧
      ClientFrame.ofText? greetsToo = some (.connect "x" (some lastWords)) ∧
      (t.run [subscribesToo, .flush 0]).phase 1 ≠ some .ended ∧
      t.history [subscribesToo, .flush 0] = [.subscribed 1 "x" "a"] := by
    decide +kernel
  have newest : ∀ d ∈ t.history [subscribesToo, .flush 0], d.takes "x" = false := by
    rw [deeds]
    decide
  refine ⟨open_, newest, ?_⟩
  refine (takeover_undisturbed_iff 7 rivals [subscribesToo, .flush 0] 1 "x" greetsToo
    (some lastWords) greeting parsed open_ newest).2 ?_
  change (t.history _).any _ = false ∧ ∀ filter, Holds 1 "x" filter (t.history _) →
    Stands "x" filter (t.history _)
  rw [deeds]
  refine ⟨by decide, fun filter holds => ?_⟩
  by_cases h : "a" = filter
  · simpa [Holds, Stands, words, Deed.word?, h] using holds
  · simp [Holds, words, Deed.word?, h, lastIsYes] at holds

/-- The end of the first connection strikes out the registration of the second. -/
theorem not_always_undisturbed :
    ¬∀ (now : Int64) (before after : List Event) (c : Nat) (client text : String)
      (will : Option Will),
      ((empty now).run before).phase c = some .greeting →
      ClientFrame.ofText? text = some (.connect client will) →
      let t := (empty now).run (before ++ [.receive c (.text text)])
      (t.run after).phase c ≠ some .ended →
      (∀ d ∈ t.history after, d.takes client = false) →
      Undisturbed t after c client will := by
  intro always
  let t := (empty 7).run (rivals ++ [.receive 1 (.text greetsToo)])
  obtain ⟨greeting, parsed, open_, newest, struck⟩ :
      ((empty 7).run rivals).phase 1 = some .greeting ∧
        ClientFrame.ofText? greetsToo = some (.connect "x" (some lastWords)) ∧
        (t.run [subscribesToo, .receive 0 .ended]).phase 1 ≠ some .ended ∧
        (∀ d ∈ t.history [subscribesToo, .receive 0 .ended], d.takes "x" = false) ∧
        (t.run [subscribesToo, .receive 0 .ended]).registration "x" = none := by
    decide +kernel
  have undisturbed := always 7 rivals [subscribesToo, .receive 0 .ended] 1 "x" greetsToo
    (some lastWords) greeting parsed open_ newest
  obtain ⟨inbox, -, registered⟩ := undisturbed.registration
  rw [struck] at registered
  cases registered

end BrokerServer

end TopicMesh
