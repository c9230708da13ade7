import TopicMesh.Proofs.Broker.Switchboard

/-!
# Wills

A party **lives** from the event by which it arrives to the event by which it ends.  Its
registration has an inbox that no other registration has, before or after, so the wills
that a run publishes can be told apart by these inboxes (`willsOf`).  What a run publishes
accounts for all that happens to the hub (`accounted`).

**A will is published exactly once if its party ends without a farewell, and never
otherwise** (`will_published_once`), in every orderly run.  While the party lives, nobody
else can use up its registration, because nobody else serves its name (`Lives.step`); when
it has ended, the registration is gone for good (`Retired.step`).

When a will is published, it goes once to every other registered client that owns a filter
which its topic matches, and it is kept if it is to be (`Parted`).  From then on, until
somebody arrives in its name, the client has departed (`Departed`): it is not registered,
no filter lists it, and nothing is put into its queues.
-/

namespace TopicMesh

/-- The will of the registration that has an inbox, if a notice is one. -/
def Notice.willOf? (inbox : Nat) (n : Notice) : Option Message :=
  if n.will = some inbox then some n.message else none

/-- The wills among some notices of the registration that has an inbox. -/
def willsOf (inbox : Nat) (notices : List Notice) : List Message :=
  notices.filterMap (Notice.willOf? inbox)

namespace Switchboard

/-- What an event publishes. -/
def notices (s : Switchboard) (e : Event) : List Notice :=
  (s.dealing? e).elim [] (Dealing.notices s.hub)

/-- Whether what an event publishes accounts for all that it does to the hub: the notices
are published one after the other, between a part that publishes nothing and the closing of
an inbox. -/
def Accounted (s : Switchboard) (e : Event) : Prop :=
  (s.step e).hub = (s.dealing? e).elim s.hub fun d =>
    d.conclude ((d.prepare s.hub).publishAll (s.notices e))

/-- What some events publish, oldest first. -/
def published : Switchboard → List Event → List Notice
  | _, [] => []
  | s, e :: rest => s.notices e ++ (s.step e).published rest

/-- Whether an event ends a party, and if so whether by a farewell. -/
def ending? (s : Switchboard) (p : Party) (e : Event) : Option Bool :=
  match s.dealing? e with
  | some (.leaves q _ graceful _) => if q = p then some graceful else none
  | _ => none

/-- How the first end of a party is during some events. -/
def end? (p : Party) : Switchboard → List Event → Option Bool
  | _, [] => none
  | s, e :: rest => (s.ending? p e).or ((s.step e).end? p rest)

/-- The client that arrives by an event. -/
def arrival? (s : Switchboard) (e : Event) : Option String :=
  match s.dealing? e with
  | some (.arrives _ client _) => some client
  | _ => none

/-- The clients that arrive during some events. -/
def arrivals : Switchboard → List Event → List String
  | _, [] => []
  | s, e :: rest => (s.arrival? e).toList ++ (s.step e).arrivals rest

/-- Whether the broker has done with a client: it is not registered, no filter lists it,
and whatever happens next, nothing is put into a queue of its own. -/
structure Departed (s : Switchboard) (client : String) : Prop where
  unregistered : s.hub.broker.clients.get? client = none
  unlisted : ∀ filter, s.hub.broker.subscribed filter client = false
  silent : ∀ e inbox, s.hub.ownerOf? inbox = some client →
    (s.step e).hub.framesIn inbox <:+ s.hub.framesIn inbox

variable {s : Switchboard} {e : Event} {d : Dealing} {p : Party} {client : String} {inbox : Nat}
  {will : Option Will}

/-! ## Whose will -/

/-- **Nothing is published but the notices.** -/
theorem accounted (s : Switchboard) (e : Event) : s.Accounted e := by
  unfold Accounted notices
  rw [hub_step]
  cases s.dealing? e <;> rfl

theorem willsOf_append (inbox : Nat) (notices more : List Notice) :
    willsOf inbox (notices ++ more) = willsOf inbox notices ++ willsOf inbox more :=
  List.filterMap_append

/-- Nobody's will is published but that of a registered client that leaves without a
farewell. -/
theorem willsOf_notices_eq_nil
    (kept : ∀ q other shuts, s.dealing? e = some (.leaves q other false shuts) →
      s.hub.inboxOf other ≠ some inbox) : willsOf inbox (s.notices e) = [] := by
  refine List.filterMap_eq_nil_iff.2 fun n published => if_neg fun whose => ?_
  unfold notices at published
  cases amounts : s.dealing? e with
  | none => rw [amounts] at published; cases published
  | some d =>
    rw [amounts] at published
    cases d with
    | publishes q m =>
      cases List.mem_singleton.1 published
      cases whose
    | leaves q other graceful shuts =>
      cases graceful with
      | true => cases published
      | false =>
        exact kept q other shuts amounts ((Hub.will_of_mem_bequest published).symm.trans whose)
    | _ => cases published

theorem nextInbox_step (s : Switchboard) (e : Event) :
    s.hub.nextInbox ≤ (s.step e).hub.nextInbox := by
  rw [hub_step]
  cases s.dealing? e with
  | none => exact Nat.le_refl _
  | some d => exact Dealing.nextInbox_on d s.hub ▸ Nat.le_add_right ..

theorem nextInbox_run (s : Switchboard) (events : List Event) :
    s.hub.nextInbox ≤ (s.run events).hub.nextInbox := by
  induction events generalizing s with
  | nil => exact Nat.le_refl _
  | cons e rest ih => exact Nat.le_trans (nextInbox_step s e) (ih (s.step e))

/-- Before an inbox is opened, no will of a registration with that inbox is published. -/
theorem willsOf_published_before {events : List Event} (sound : s.Sound)
    (orderly : s.Orderly events) (new : (s.run events).hub.nextInbox ≤ inbox) :
    willsOf inbox (s.published events) = [] := by
  induction events generalizing s with
  | nil => rfl
  | cons e rest ih =>
    have later := orderly.tail
    have still := Nat.le_trans (nextInbox_run s (e :: rest)) new
    have none_now : willsOf inbox (s.notices e) = [] :=
      willsOf_notices_eq_nil fun q other shuts _ reads =>
        Nat.not_lt_of_ge still (sound.hub.inbox_lt (sound.hub.ownerOf?_of_inboxOf reads))
    rw [published, willsOf_append, none_now, ih (sound.step orderly.apart e) later new]
    rfl

/-! ## While a party lives -/

/-- Whether a party serves a client by a registration of that client. -/
structure Lives (s : Switchboard) (p : Party) (client : String) (r : Registration Nat) : Prop where
  serves : s.serves p = some client
  registered : s.hub.broker.clients.get? client = some r

/-- Whether the registration that had an inbox is gone for good. -/
structure Retired (s : Switchboard) (inbox : Nat) : Prop where
  old : inbox < s.hub.nextInbox
  unread : ∀ client, s.hub.inboxOf client ≠ some inbox

variable {r : Registration Nat}

theorem lives_of_arrives (sound : s.Sound)
    (arrives : s.dealing? e = some (.arrives p client will)) :
    (s.step e).Lives p client ⟨s.hub.nextInbox, will⟩ where
  serves := by
    rw [serves_step sound.known, arrives]
    exact if_pos rfl
  registered := by
    rw [hub_step, arrives]
    exact Dealing.registration_arrives

/-- Who does not end serves its client as before. -/
theorem serves_step_of_goes_on (sound : s.Sound) (serves : s.serves p = some client)
    (goes_on : s.ending? p e = none) : (s.step e).serves p = some client := by
  rw [serves_step sound.known]
  unfold ending? at goes_on
  cases amounts : s.dealing? e with
  | none => exact serves
  | some d =>
    rw [amounts] at goes_on
    cases d with
    | arrives q other will =>
      have other_party : q ≠ p := by
        rintro rfl
        exact Option.some_ne_none client (serves.symm.trans (fits_of_dealing? amounts))
      exact (if_neg other_party).trans serves
    | leaves q other graceful shuts =>
      have other_party : q ≠ p := fun same => by simp [same] at goes_on
      exact (if_neg other_party).trans serves
    | _ => exact serves

/-- While a party lives, nobody else comes or goes in its name. -/
theorem moved?_ne (sound : s.Sound) (apart : s.Apart) (apart' : (s.step e).Apart)
    (serves : s.serves p = some client) (goes_on : s.ending? p e = none)
    (amounts : s.dealing? e = some d) : d.moved? ≠ some client := by
  intro moves
  have fits := fits_of_dealing? amounts
  cases d with
  | arrives q other will =>
    cases moves
    have twice : (s.step e).serves q = some client := by
      rw [serves_step sound.known, amounts]
      exact if_pos rfl
    have same : q = p := apart' q p client twice (serves_step_of_goes_on sound serves goes_on)
    subst same
    exact Option.some_ne_none client (serves.symm.trans fits)
  | leaves q other graceful shuts =>
    cases moves
    have same : q = p := apart q p client fits.1 serves
    rw [ending?, amounts] at goes_on
    simp [same] at goes_on
  | _ => cases moves

/-- **As long as a party does not end, its registration stays and its will is not
published.** -/
theorem Lives.step (lives : s.Lives p client r) (sound : s.Sound) (apart : s.Apart)
    (apart' : (s.step e).Apart) (goes_on : s.ending? p e = none) :
    (s.step e).Lives p client r ∧ willsOf r.inbox (s.notices e) = [] := by
  refine ⟨⟨serves_step_of_goes_on sound lives.serves goes_on, ?_⟩, ?_⟩
  · rw [hub_step]
    cases amounts : s.dealing? e with
    | none => exact lives.registered
    | some d =>
      have stays := moved?_ne sound apart apart' lives.serves goes_on amounts
      exact (Dealing.registration_on stays).trans lives.registered
  · refine willsOf_notices_eq_nil fun q other shuts amounts reads => ?_
    -- the inbox is of one client only, and that does not leave
    have same := sound.hub.client_unique reads
      (congrArg (Option.map Registration.inbox) lives.registered)
    subst same
    exact moved?_ne sound apart apart' lives.serves goes_on amounts rfl

theorem Lives.run {events : List Event} (lives : s.Lives p client r) (sound : s.Sound)
    (orderly : s.Orderly events) (goes_on : s.end? p events = none) :
    (s.run events).Lives p client r := by
  induction events generalizing s with
  | nil => exact lives
  | cons e rest ih =>
    obtain ⟨now, later⟩ := Option.or_eq_none_iff.1 goes_on
    have rest_orderly := orderly.tail
    exact ih (lives.step sound orderly.apart rest_orderly.apart now).1 (sound.step orderly.apart e)
      rest_orderly later

/-! ## When a party ends -/

theorem leaves_of_ending? {graceful : Bool} (ends : s.ending? p e = some graceful) :
    ∃ client shuts, s.dealing? e = some (.leaves p client graceful shuts) := by
  unfold ending? at ends
  split at ends
  · next q client g shuts amounts =>
    obtain ⟨rfl, same⟩ := Option.ite_none_right_eq_some.1 ends
    cases same
    exact ⟨client, shuts, amounts⟩
  · cases ends

/-- Who ends, leaves in the name of the client that it serves. -/
theorem Lives.leaves (lives : s.Lives p client r) {graceful : Bool}
    (ends : s.ending? p e = some graceful) :
    ∃ shuts, s.dealing? e = some (.leaves p client graceful shuts) := by
  obtain ⟨other, shuts, amounts⟩ := leaves_of_ending? ends
  have named := (fits_of_dealing? amounts).1.symm.trans lives.serves
  cases named
  exact ⟨shuts, amounts⟩

/-- **The end of a party publishes its will**, unless the party takes its leave. -/
theorem Lives.willsOf_ending (lives : s.Lives p client r) {graceful : Bool}
    (ends : s.ending? p e = some graceful) :
    willsOf r.inbox (s.notices e) =
      if graceful then [] else (r.will.map Will.toMessage).toList := by
  obtain ⟨shuts, amounts⟩ := lives.leaves ends
  obtain ⟨inbox, will⟩ := r
  rw [notices, amounts]
  cases graceful with
  | true => rfl
  | false =>
    show willsOf inbox (s.hub.bequest client) = _
    rw [Hub.bequest_of_registered lives.registered]
    cases will with
    | none => rfl
    | some w => simp [willsOf, Notice.willOf?]

theorem Lives.retired (lives : s.Lives p client r) (sound : s.Sound) {graceful : Bool}
    (ends : s.ending? p e = some graceful) : (s.step e).Retired r.inbox := by
  obtain ⟨shuts, amounts⟩ := lives.leaves ends
  have reads : s.hub.inboxOf client = some r.inbox :=
    congrArg (Option.map Registration.inbox) lives.registered
  have old := sound.hub.inbox_lt (sound.hub.ownerOf?_of_inboxOf reads)
  refine ⟨Nat.lt_of_lt_of_le old (nextInbox_step s e), fun other reads' => ?_⟩
  rw [hub_step, amounts] at reads'
  obtain ⟨r', registered, same⟩ := Option.map_eq_some_iff.1 reads'
  rcases Dealing.inbox_of_registration_on registered with before | new
  · have named : other = client :=
      sound.hub.client_unique ((congrArg (Option.map Registration.inbox) before).trans
        (congrArg some same)) reads
    subst named
    cases Dealing.registration_leaves.symm.trans registered
  · exact Nat.ne_of_lt old (same.symm.trans new)

/-- What is gone stays so, and its will is not published any more. -/
theorem Retired.step (retired : s.Retired inbox) (e : Event) :
    (s.step e).Retired inbox ∧ willsOf inbox (s.notices e) = [] := by
  refine ⟨⟨Nat.lt_of_lt_of_le retired.old (nextInbox_step s e), fun other reads => ?_⟩,
    willsOf_notices_eq_nil fun q other shuts _ => retired.unread other⟩
  rw [hub_step] at reads
  cases amounts : s.dealing? e with
  | none => rw [amounts] at reads; exact retired.unread other reads
  | some d =>
    rw [amounts] at reads
    obtain ⟨r, registered, rfl⟩ := Option.map_eq_some_iff.1 reads
    rcases Dealing.inbox_of_registration_on registered with before | new
    · exact retired.unread other (congrArg (Option.map Registration.inbox) before)
    · exact Nat.ne_of_lt retired.old new

theorem Retired.willsOf_published (retired : s.Retired inbox) (events : List Event) :
    willsOf inbox (s.published events) = [] := by
  induction events generalizing s with
  | nil => rfl
  | cons e rest ih =>
    obtain ⟨still, nothing⟩ := retired.step e
    rw [published, willsOf_append, nothing, ih still]
    rfl

/-- **Over the rest of a run the will is published once, at an end without a farewell.** -/
theorem Lives.willsOf_published {events : List Event} (lives : s.Lives p client r)
    (sound : s.Sound) (orderly : s.Orderly events) :
    willsOf r.inbox (s.published events) =
      if s.end? p events = some false then (r.will.map Will.toMessage).toList else [] := by
  induction events generalizing s with
  | nil => rfl
  | cons e rest ih =>
    have later := orderly.tail
    rw [published, willsOf_append, end?]
    cases ends : s.ending? p e with
    | none =>
      obtain ⟨lives', nothing⟩ := lives.step sound orderly.apart later.apart ends
      rw [nothing, ih lives' (sound.step orderly.apart e) later, Option.none_or]
      rfl
    | some graceful =>
      rw [lives.willsOf_ending ends, (lives.retired sound ends).willsOf_published, List.append_nil]
      cases graceful <;> rfl

/-- What an end does to everybody. -/
theorem Lives.parted (lives : s.Lives p client r) (sound : s.Sound) {graceful : Bool}
    (ends : s.ending? p e = some graceful) :
    Parted s.hub (s.step e).hub client (if graceful then none else r.will.map Will.toMessage) := by
  obtain ⟨shuts, amounts⟩ := lives.leaves ends
  rw [hub_step, amounts]
  exact Dealing.parted_on sound.hub (sound.closesOwn (fits_of_dealing? amounts)) lives.registered

/-! ## When a client has departed -/

/-- Whether the broker has done with a client, and nobody serves it. -/
structure Away (s : Switchboard) (client : String) : Prop where
  unregistered : s.hub.broker.clients.get? client = none
  unlisted : ∀ filter, s.hub.broker.subscribed filter client = false
  unserved : ∀ p, s.serves p ≠ some client

theorem Away.departed (away : s.Away client) (sound : s.Sound) : s.Departed client where
  unregistered := away.unregistered
  unlisted := away.unlisted
  silent e inbox owner := by
    rw [hub_step]
    cases s.dealing? e with
    | none => exact List.suffix_refl _
    | some d => exact Dealing.framesIn_on_unregistered sound.hub owner away.unregistered

/-- The end of its party leaves nothing of a client. -/
theorem Lives.away (lives : s.Lives p client r) (sound : s.Sound) (apart : s.Apart)
    {graceful : Bool} (ends : s.ending? p e = some graceful) : (s.step e).Away client := by
  obtain ⟨shuts, amounts⟩ := lives.leaves ends
  refine ⟨?_, fun filter => ?_, fun q serves => ?_⟩
  · rw [hub_step, amounts]
    exact Dealing.registration_leaves
  · rw [hub_step, amounts]
    exact Dealing.unlisted_leaves filter
  · rw [serves_step sound.known, amounts] at serves
    change (if p = q then none else s.serves q) = some client at serves
    obtain ⟨other, serves⟩ := Option.ite_none_left_eq_some.1 serves
    exact other (apart p q client lives.serves serves)

/-- A client that is away stays so until it arrives. -/
theorem Away.step (away : s.Away client) (sound : s.Sound) (stays : s.arrival? e ≠ some client) :
    (s.step e).Away client := by
  cases amounts : s.dealing? e with
  | none =>
    refine ⟨?_, fun filter => ?_, fun q => ?_⟩
    · rw [hub_step, amounts]
      exact away.unregistered
    · rw [hub_step, amounts]
      exact away.unlisted filter
    · rw [serves_step sound.known, amounts]
      exact away.unserved q
  | some d =>
    have fits := fits_of_dealing? amounts
    rw [arrival?, amounts] at stays
    refine ⟨?_, fun filter => ?_, fun q => ?_⟩
    · rw [hub_step, amounts]
      refine (Dealing.registration_on fun moves => ?_).trans away.unregistered
      cases d with
      | arrives q other will => exact stays moves
      | leaves q other graceful shuts => exact away.unserved q (fits.1.trans moves)
      | _ => cases moves
    · rw [hub_step, amounts]
      refine Dealing.unlisted_on (away.unlisted filter) fun lists => ?_
      cases d with
      | subscribes q other f qos => exact away.unserved q (fits.trans lists)
      | _ => cases lists
    · rw [serves_step sound.known, amounts]
      show d.onServes q (s.serves q) ≠ some client
      cases d with
      | arrives q' other will =>
        show (if q' = q then some other else s.serves q) ≠ some client
        split
        · exact stays
        · exact away.unserved q
      | leaves q' other graceful shuts =>
        show (if q' = q then none else s.serves q) ≠ some client
        split
        · exact (Option.some_ne_none client).symm
        · exact away.unserved q
      | _ => exact away.unserved q

theorem Away.run {events : List Event} (away : s.Away client) (sound : s.Sound)
    (orderly : s.Orderly events) (stays : client ∉ s.arrivals events) :
    (s.run events).Away client := by
  induction events generalizing s with
  | nil => exact away
  | cons e rest ih =>
    rw [arrivals, List.mem_append, Option.mem_toList, not_or] at stays
    exact ih (away.step sound stays.1) (sound.step orderly.apart e) orderly.tail stays.2

/-! ## The whole life -/

theorem published_append (s : Switchboard) (events more : List Event) :
    s.published (events ++ more) = s.published events ++ (s.run events).published more := by
  induction events generalizing s with
  | nil => rfl
  | cons e rest ih =>
    show s.notices e ++ (s.step e).published (rest ++ more) = _
    rw [ih, ← List.append_assoc]
    rfl

/-- **A will is published exactly once if its party ends without a farewell, and never
otherwise.**  In a run in which no two parties ever use one name at a time, a party arrives
in the name of a client and is registered with the next inbox.  What each event publishes is
accounted for; and over the whole run the wills of that registration that are published are:
its will, if the first end of the party is one without a farewell, and none else.

The end has the effects of `Parted`: a will that is published goes once to every other
registered client that owns a filter which its topic matches, and not to the client itself;
and it becomes the retained message of its topic if it is to be kept and has a payload.
After the end, until somebody arrives in the client's name, the client has departed. -/
theorem will_published_once (now : Int64) (names : Nat → String) (past : List Event) (birth : Event)
    (events : List Event) (orderly : (start now names).Orderly (past ++ birth :: events))
    (arrives : ((start now names).run past).dealing? birth = some (.arrives p client will)) :
    let s := (start now names).run past
    let t := s.step birth
    (∀ done e rest, past ++ birth :: events = done ++ e :: rest →
        ((start now names).run done).Accounted e) ∧
      willsOf s.hub.nextInbox ((start now names).published (past ++ birth :: events)) =
        (if t.end? p events = some false then (will.map Will.toMessage).toList else []) ∧
      ∀ life last rest graceful, events = life ++ last :: rest → t.end? p life = none →
        let u := t.run life
        u.ending? p last = some graceful →
        Parted u.hub (u.step last).hub client (if graceful then none else will.map Will.toMessage) ∧
          ∀ quiet, quiet <+: rest → client ∉ (u.step last).arrivals quiet →
            ((u.step last).run quiet).Departed client := by
  intro s t
  have sound : s.Sound := (sound_start now names).run orderly.take
  have here := orderly.drop
  have lives : t.Lives p client ⟨s.hub.nextInbox, will⟩ := lives_of_arrives sound arrives
  have sound' : t.Sound := sound.step here.apart birth
  have later : t.Orderly events := here.tail
  refine ⟨fun done e rest _ => accounted _ e, ?_, ?_⟩
  · have before := willsOf_published_before (sound_start now names) orderly.take (Nat.le_refl _)
    have birth_silent : s.notices birth = [] := by
      rw [notices, arrives]
      rfl
    rw [published_append, willsOf_append, before, published, birth_silent]
    exact lives.willsOf_published sound' later
  · intro life last rest graceful split goes_on u ends
    subst split
    have sound_u : u.Sound := sound'.run later.take
    have lives_u := lives.run sound' later.take goes_on
    have apart_u := later.drop.apart
    refine ⟨lives_u.parted sound_u ends, fun quiet part stays => ?_⟩
    have sound_v := sound_u.step apart_u last
    have orderly_v : (u.step last).Orderly quiet := fun past part' =>
      later.drop.tail past (part'.trans part)
    exact ((lives_u.away sound_u apart_u ends).run sound_v orderly_v stays).departed
      (sound_v.run orderly_v)

/-- A will that is to be kept. -/
def lastWish : Will := ⟨"w", [1], .atMostOnce, true⟩

/-- One client subscribes a topic over a connection; another connection is accepted. -/
def listenerFirst : List BrokerServer.Event :=
  [.accept, .receive 0 (.text (ClientFrame.connect "y" none).toText),
    .receive 0 (.text (ClientFrame.subscribe "w" .atMostOnce).toText), .accept]

/-- Over it another client greets, with a will on that topic. -/
def greetsWithWish : BrokerServer.Event :=
  .receive 1 (.text (ClientFrame.connect "x" (some lastWish)).toText)

/-- The second connection breaks: the will goes to the first client and is kept. -/
theorem will_published_once_of_lost_connection :
    let s := (start 7 fun _ => "z").run (listenerFirst.map .server)
    let t := s.step (.server greetsWithWish)
    let v := t.step (.server (.receive 1 .ended))
    (start 7 fun _ => "z").Orderly
        (listenerFirst.map .server ++ .server greetsWithWish :: [.server (.receive 1 .ended)]) ∧
      s.dealing? (.server greetsWithWish) = some (.arrives (.connection 1) "x" (some lastWish)) ∧
      willsOf 1 ((start 7 fun _ => "z").published
          (listenerFirst.map .server ++ .server greetsWithWish :: [.server (.receive 1 .ended)])) =
        [lastWish.toMessage] ∧
      Parted t.hub v.hub "x" (some lastWish.toMessage) ∧ v.Departed "x" := by
  intro s t v
  have orderly : (start 7 fun _ => "z").Orderly
      ((listenerFirst ++ greetsWithWish :: [.receive 1 .ended]).map .server) :=
    orderly_of_server 7 _ _ (by decide +kernel)
  obtain ⟨arrives, opened, ends⟩ :
      s.dealing? (.server greetsWithWish) = some (.arrives (.connection 1) "x" (some lastWish)) ∧
        s.hub.nextInbox = 1 ∧
        t.ending? (.connection 1) (.server (.receive 1 .ended)) = some false := by
    decide +kernel
  obtain ⟨-, once, whole⟩ := will_published_once 7 (fun _ => "z") (listenerFirst.map .server)
    (.server greetsWithWish) [.server (.receive 1 .ended)] orderly arrives
  obtain ⟨parted, departed⟩ := whole [] (.server (.receive 1 .ended)) [] false rfl rfl ends
  refine ⟨orderly, arrives, ?_, parted, departed [] List.nil_prefix List.not_mem_nil⟩
  rw [opened] at once
  refine once.trans (if_pos ?_)
  show (t.ending? _ _).or _ = _
  rw [ends]
  rfl

end Switchboard

end TopicMesh
