import TopicMesh.Proofs.Broker.Queues
import TopicMesh.Proofs.Broker.Retaining

/-!
# Dealings at a hub

Clients reach a hub over connections of the server or over lines of their own process; both
are **parties**.  Whatever a party does amounts to one of a few **dealings**, and each of
them is done in three parts (`Dealing.on`): a part that publishes nothing (`prepare`), the
messages that are published (`notices`), and the closing of an inbox (`conclude`).  A
notice says whether it is a will, and of which registration.

Everything that the other modules need to know of a dealing is said here once: what it
leaves of the registrations, the listings and the owners of the inboxes, and that a client
who is not registered gets nothing (`framesIn_on_unregistered`).

`Parted` is what the end of a party does to everybody: the will goes once to each other
owner of its topic and is kept if it is to be (`parted_on`).
-/

namespace TopicMesh

/-- Who uses the broker: a connection of the server, or a line. -/
inductive Party
  | connection (c : Nat)
  | line (i : Nat)
deriving DecidableEq, Repr

/-- A message that is published. -/
structure Notice where
  /-- The inbox of the registration whose will it is, if it is a will. -/
  will : Option Nat
  message : Message
deriving DecidableEq, Repr

/-- What can be done at a hub. -/
inductive Dealing
  | arrives (p : Party) (client : String) (will : Option Will)
  | subscribes (p : Party) (client filter : String) (qos : QoS)
  | unsubscribes (p : Party) (client filter : String)
  | publishes (p : Party) (m : Message)
  /-- A party ends, with a farewell or without one, and perhaps its inbox is closed. -/
  | leaves (p : Party) (client : String) (graceful : Bool) (shuts : Option Nat)
  /-- All frames are taken out of an inbox. -/
  | empties (inbox : Nat)
  /-- The oldest frame is taken out of an inbox. -/
  | takes (inbox : Nat)
  | waits (now : Int64)
deriving DecidableEq, Repr

namespace Hub

/-- The will that a client leaves behind, as a notice. -/
def bequest (h : Hub) (client : String) : List Notice :=
  match h.broker.clients.get? client with
  | some ⟨inbox, some will⟩ => [⟨some inbox, will.toMessage⟩]
  | _ => []

/-- Publishes some notices, one after the other. -/
def publishAll (h : Hub) (notices : List Notice) : Hub :=
  notices.foldl (fun h n => h.publish n.message) h

end Hub

namespace Dealing

/-- What is done before anything is published. -/
def prepare (h : Hub) : Dealing → Hub
  | arrives (.connection _) client will =>
    (h.register client will).1.deliver [⟨h.nextInbox, .accepted client⟩]
  | arrives (.line _) client will => (h.register client will).1
  | subscribes _ client filter qos => h.subscribe filter client qos
  | unsubscribes _ client filter => h.unsubscribe filter client
  | publishes .. => h
  | leaves _ client _ _ => h.cleanup client true
  | empties inbox => (h.take inbox).1
  | takes inbox => h.popped inbox
  | waits now => { h with now := now }

/-- What is published. -/
def notices (h : Hub) : Dealing → List Notice
  | publishes _ m => [⟨none, m⟩]
  | leaves _ client false _ => h.bequest client
  | _ => []

/-- What is done when all is published. -/
def conclude (h : Hub) : Dealing → Hub
  | leaves _ _ _ (some inbox) => h.closeInbox inbox
  | _ => h

/-- **What becomes of a hub by a dealing.** -/
def on (d : Dealing) (h : Hub) : Hub :=
  d.conclude ((d.prepare h).publishAll (d.notices h))

/-- The client that comes or goes. -/
def moved? : Dealing → Option String
  | arrives _ client _ => some client
  | leaves _ client _ _ => some client
  | _ => none

/-- Who deals. -/
def party? : Dealing → Option Party
  | arrives p _ _ => some p
  | subscribes p _ _ _ => some p
  | unsubscribes p _ _ => some p
  | publishes p _ => some p
  | leaves p _ _ _ => some p
  | _ => none

/-- The client that a party serves after a dealing. -/
def onServes (p : Party) (served : Option String) : Dealing → Option String
  | arrives q client _ => if q = p then some client else served
  | leaves q _ _ _ => if q = p then none else served
  | _ => served

/-- The client that is perhaps listed below a filter from now on. -/
def lister? : Dealing → Option String
  | subscribes _ client _ _ => some client
  | _ => none

/-- The inbox that is closed. -/
def shut? : Dealing → Option Nat
  | leaves _ _ _ shuts => shuts
  | _ => none

end Dealing

/-- What the end of a party does, in the name of a client: `said` is the will that is
published, if one is. -/
structure Parted (h h' : Hub) (client : String) (said : Option Message) : Prop where
  /-- The will is put once into the queue of every other registered client that owns a
  filter which its topic matches, and nothing else is put there. -/
  delivered : ∀ reader inbox, reader ≠ client → h.inboxOf reader = some inbox →
    h'.framesIn inbox = h.framesIn inbox ++
      ((said.filter fun m => h.broker.owns m.topic reader).map fun m =>
        ServerFrame.deliver { m.stamp h.now with retain := false }).toList
  /-- Nothing is put into a queue of the client itself. -/
  withheld : ∀ inbox, h.ownerOf? inbox = some client → h'.framesIn inbox <:+ h.framesIn inbox
  /-- The will is kept on its topic if it is to be, unless its payload is empty. -/
  kept : ∀ topic, h'.broker.retained.byTopic.get? topic =
    match said.filter fun m => m.retain && m.topic = topic with
    | some m => Broker.Publication.kept? ⟨h.now, m⟩
    | none => h.broker.retained.byTopic.get? topic

namespace Hub

variable {h : Hub} {client reader : String} {inbox : Nat}

/-! ## Emptying an inbox -/

theorem get?_mailboxes_take (h : Hub) (inbox other : Nat) :
    (h.take inbox).1.mailboxes.get? other =
      (h.mailboxes.get? other).map fun box =>
        if inbox = other then { box with frames := [] } else box := by
  unfold take
  by_cases here : inbox = other
  · subst here
    cases found : h.mailboxes.get? inbox with
    | none => exact found
    | some box =>
      show (h.mailboxes.insert inbox _).get? inbox = _
      rw [KeyMap.get?_insert, if_pos rfl, Option.map_some, if_pos rfl]
  · simp only [if_neg here, Option.map_id']
    split
    · rfl
    · exact (KeyMap.get?_insert ..).trans (if_neg here)

@[simp] theorem nextInbox_take (h : Hub) (inbox : Nat) :
    (h.take inbox).1.nextInbox = h.nextInbox := by
  unfold take
  split <;> rfl

theorem ownerOf?_take (h : Hub) (inbox other : Nat) :
    (h.take inbox).1.ownerOf? other = h.ownerOf? other := by
  unfold ownerOf?
  rw [get?_mailboxes_take]
  cases h.mailboxes.get? other <;> split <;> rfl

theorem framesIn_take (h : Hub) (inbox other : Nat) :
    (h.take inbox).1.framesIn other = if inbox = other then [] else h.framesIn other := by
  unfold framesIn
  rw [get?_mailboxes_take]
  cases h.mailboxes.get? other <;> split <;> rfl

theorem sound_take (sound : h.Sound) (inbox : Nat) : (h.take inbox).1.Sound where
  mailbox client r registered := by
    rw [broker_take] at registered
    obtain ⟨box, found, owner⟩ := sound.mailbox client r registered
    rw [get?_mailboxes_take, found]
    refine ⟨_, rfl, ?_⟩
    split <;> exact owner
  fresh other new := by
    rw [nextInbox_take] at new
    rw [get?_mailboxes_take]
    exact Option.map_eq_none_iff.2 (sound.fresh other new)
  topics := by
    rw [broker_take]
    exact sound.topics
  filed := by
    rw [broker_take]
    exact sound.filed

/-! ## Taking the oldest frame -/

@[simp] theorem broker_popped (h : Hub) (inbox : Nat) : (h.popped inbox).broker = h.broker := by
  unfold popped
  cases is : h.pop? inbox with
  | none => rfl
  | some result => exact broker_of_pop? is

@[simp] theorem nextInbox_popped (h : Hub) (inbox : Nat) :
    (h.popped inbox).nextInbox = h.nextInbox := by
  unfold popped
  cases is : h.pop? inbox with
  | none => rfl
  | some result =>
    obtain ⟨rest, -, same⟩ := pop?_eq_some is
    show result.1.nextInbox = _
    rw [same]

theorem sound_popped (sound : h.Sound) (inbox : Nat) : (h.popped inbox).Sound := by
  unfold popped
  cases is : h.pop? inbox with
  | none => exact sound
  | some result => exact sound_of_pop? sound is

/-! ## Publishing notices -/

section PublishingAll

variable (notices : List Notice)

@[simp] theorem clients_publishAll (h : Hub) :
    (h.publishAll notices).broker.clients = h.broker.clients := by
  induction notices generalizing h with
  | nil => rfl
  | cons n rest ih => exact ih (h.publish n.message)

@[simp] theorem subscribed_publishAll (h : Hub) (filter client : String) :
    (h.publishAll notices).broker.subscribed filter client = h.broker.subscribed filter client := by
  induction notices generalizing h with
  | nil => rfl
  | cons n rest ih => exact ih (h.publish n.message)

@[simp] theorem nextInbox_publishAll (h : Hub) :
    (h.publishAll notices).nextInbox = h.nextInbox := by
  induction notices generalizing h with
  | nil => rfl
  | cons n rest ih => exact ih (h.publish n.message)

@[simp] theorem ownerOf?_publishAll (h : Hub) (inbox : Nat) :
    (h.publishAll notices).ownerOf? inbox = h.ownerOf? inbox := by
  induction notices generalizing h with
  | nil => rfl
  | cons n rest ih => exact (ih (h.publish n.message)).trans (ownerOf?_publish n.message)

theorem sound_publishAll (sound : h.Sound) : (h.publishAll notices).Sound := by
  induction notices generalizing h with
  | nil => exact sound
  | cons n rest ih => exact ih (sound_publish sound n.message)

theorem framesIn_publishAll_unread (sound : h.Sound)
    (unread : ∀ client, h.inboxOf client ≠ some inbox) :
    (h.publishAll notices).framesIn inbox = h.framesIn inbox := by
  induction notices generalizing h with
  | nil => rfl
  | cons n rest ih =>
    exact (ih (sound_publish sound n.message) unread).trans
      (framesIn_publish_unread unread sound n.message)

end PublishingAll

/-- **An ungraceful end is a graceful one, and the publication of the will after it.** -/
theorem cleanup_eq (h : Hub) (client : String) (graceful : Bool) :
    h.cleanup client graceful =
      (h.cleanup client true).publishAll (if graceful then [] else h.bequest client) := by
  cases graceful with
  | true => rfl
  | false =>
    rw [cleanup_ungraceful, bequest]
    cases h.broker.clients.get? client with
    | none => rfl
    | some r =>
      obtain ⟨inbox, will⟩ := r
      cases will <;> rfl

theorem bequest_of_registered {will : Option Will}
    (registered : h.broker.clients.get? client = some ⟨inbox, will⟩) :
    h.bequest client = (will.map fun w => ⟨some inbox, w.toMessage⟩).toList := by
  unfold bequest
  rw [registered]
  cases will <;> rfl

theorem will_of_mem_bequest {n : Notice} (left : n ∈ h.bequest client) :
    n.will = h.inboxOf client := by
  unfold bequest at left
  split at left
  · next inbox will registered =>
    cases List.mem_singleton.1 left
    rw [inboxOf, registered]
    rfl
  · cases left

/-- A client that is not registered reads no inbox of its own. -/
theorem Sound.unread (sound : h.Sound) (owner : h.ownerOf? inbox = some client)
    (unregistered : h.broker.clients.get? client = none) (reader : String) :
    h.inboxOf reader ≠ some inbox := by
  intro reads
  cases (sound.ownerOf?_of_inboxOf reads).symm.trans owner
  rw [inboxOf, unregistered] at reads
  cases reads

theorem Sound.inbox_lt (sound : h.Sound) (owner : h.ownerOf? inbox = some client) :
    inbox < h.nextInbox := by
  refine Nat.lt_of_not_le fun new => ?_
  rw [ownerOf?, sound.fresh inbox new] at owner
  cases owner

end Hub

namespace Dealing

variable {d : Dealing} {h : Hub} {p : Party} {client : String} {inbox : Nat} {will : Option Will}
  {graceful : Bool} {shuts : Option Nat}

/-- A party serves whom it serves while others deal. -/
theorem onServes_of_ne {served : Option String} (other : d.party? ≠ some p) :
    d.onServes p served = served := by
  cases d with
  | arrives q client will => exact if_neg fun same => other (congrArg some same)
  | leaves q client graceful shuts => exact if_neg fun same => other (congrArg some same)
  | _ => rfl

/-- The closing of an inbox changes nothing of what the broker knows. -/
@[simp] theorem broker_conclude (d : Dealing) (h : Hub) : (d.conclude h).broker = h.broker := by
  unfold conclude
  split <;> rfl

/-! ## What is registered -/

theorem clients_on (d : Dealing) (h : Hub) :
    (d.on h).broker.clients = (d.prepare h).broker.clients := by
  rw [on, broker_conclude, Hub.clients_publishAll]

/-- Whoever neither comes nor goes stays registered as before. -/
theorem registration_on (stays : d.moved? ≠ some client) :
    (d.on h).broker.clients.get? client = h.broker.clients.get? client := by
  rw [clients_on]
  cases d with
  | arrives p other will =>
    have apart : other ≠ client := fun same => stays (congrArg some same)
    cases p <;> exact (KeyMap.get?_insert ..).trans (if_neg apart)
  | subscribes p other filter qos =>
    show (h.subscribe filter other qos).broker.clients.get? client = _
    rw [Hub.broker_subscribe, Broker.clients_subscribe]
  | leaves p other graceful shuts =>
    have apart : other ≠ client := fun same => stays (congrArg some same)
    show (h.cleanup other true).broker.clients.get? client = _
    rw [Hub.broker_cleanup, Broker.clients_cleanup, KeyMap.get?_erase, if_neg apart]
  | empties other => exact congrArg (fun b => b.clients.get? client) (Hub.broker_take h other)
  | takes other => exact congrArg (fun b => b.clients.get? client) (Hub.broker_popped h other)
  | _ => rfl

theorem registration_arrives :
    ((arrives p client will).on h).broker.clients.get? client = some ⟨h.nextInbox, will⟩ := by
  rw [clients_on]
  cases p <;> exact (KeyMap.get?_insert ..).trans (if_pos rfl)

theorem registration_leaves :
    ((leaves p client graceful shuts).on h).broker.clients.get? client = none := by
  rw [clients_on]
  show (h.cleanup client true).broker.clients.get? client = _
  rw [Hub.broker_cleanup, Broker.clients_cleanup, KeyMap.get?_erase, if_pos rfl]

/-- A registration is one from before, or it has the next inbox. -/
theorem inbox_of_registration_on {r : Registration Nat}
    (registered : (d.on h).broker.clients.get? client = some r) :
    h.broker.clients.get? client = some r ∨ r.inbox = h.nextInbox := by
  by_cases moves : d.moved? = some client
  · cases d with
    | arrives p other will =>
      cases moves
      rw [registration_arrives] at registered
      cases registered
      exact .inr rfl
    | leaves p other graceful shuts =>
      cases moves
      rw [registration_leaves] at registered
      cases registered
    | _ => cases moves
  · exact .inl (registration_on moves ▸ registered)

theorem nextInbox_on (d : Dealing) (h : Hub) :
    (d.on h).nextInbox = h.nextInbox + if d matches arrives .. then 1 else 0 := by
  have last : ∀ h' : Hub, (d.conclude h').nextInbox = h'.nextInbox := fun h' => by
    unfold conclude
    split <;> rfl
  rw [on, last, Hub.nextInbox_publishAll]
  cases d with
  | arrives p other will => cases p <;> rfl
  | empties other => exact Hub.nextInbox_take h other
  | takes other => exact Hub.nextInbox_popped h other
  | _ => rfl

/-! ## Who is listed -/

theorem subscribed_on (d : Dealing) (h : Hub) (filter client : String) :
    (d.on h).broker.subscribed filter client = (d.prepare h).broker.subscribed filter client := by
  rw [on, broker_conclude, Hub.subscribed_publishAll]

/-- Nobody is listed but by its own subscription. -/
theorem unlisted_on {filter : String} (unlisted : h.broker.subscribed filter client = false)
    (stays : d.lister? ≠ some client) : (d.on h).broker.subscribed filter client = false := by
  rw [subscribed_on]
  cases d with
  | arrives p other will => cases p <;> exact unlisted
  | subscribes p other f qos =>
    have apart : other ≠ client := fun same => stays (congrArg some same)
    refine (Broker.subscribed_subscribe ..).trans ?_
    rw [unlisted, decide_eq_false fun all => apart all.2.2]
    rfl
  | unsubscribes p other f =>
    refine (Broker.subscribed_unsubscribe ..).trans ?_
    rw [unlisted, Bool.false_and]
  | leaves p other graceful shuts =>
    refine (Broker.subscribed_cleanup ..).trans ?_
    rw [unlisted, Bool.false_and]
  | empties other =>
    exact (congrArg (·.subscribed filter client) (Hub.broker_take h other)).trans unlisted
  | takes other =>
    exact (congrArg (·.subscribed filter client) (Hub.broker_popped h other)).trans unlisted
  | publishes => exact unlisted
  | waits => exact unlisted

theorem unlisted_leaves (filter : String) :
    ((leaves p client graceful shuts).on h).broker.subscribed filter client = false := by
  rw [subscribed_on]
  refine (Broker.subscribed_cleanup ..).trans ?_
  rw [decide_eq_true rfl]
  exact Bool.and_false _

/-! ## Whose the inboxes are -/

theorem ownerOf?_prepare (sound : h.Sound) (owner : h.ownerOf? inbox = some client) :
    (d.prepare h).ownerOf? inbox = some client := by
  cases d with
  | arrives p other will =>
    have old : h.nextInbox ≠ inbox := Nat.ne_of_gt (sound.inbox_lt owner)
    have registered : (h.register other will).1.ownerOf? inbox = some client := by
      rw [Hub.ownerOf?_register, if_neg old, owner]
    cases p with
    | line i => exact registered
    | connection c => exact (Hub.ownerOf?_deliver _).trans registered
  | subscribes p other filter qos => exact (Hub.ownerOf?_subscribe filter qos).trans owner
  | empties other => exact (Hub.ownerOf?_take ..).trans owner
  | takes other => exact (Hub.ownerOf?_popped ..).trans owner
  | _ => exact owner

/-- An inbox keeps its owner until it is closed. -/
theorem ownerOf?_on (sound : h.Sound) (stays : d.shut? ≠ some inbox)
    (owner : h.ownerOf? inbox = some client) : (d.on h).ownerOf? inbox = some client := by
  have last : ∀ h' : Hub, (d.conclude h').ownerOf? inbox = h'.ownerOf? inbox := fun h' => by
    unfold conclude
    split
    · next closed =>
      rw [Hub.ownerOf?_closeInbox, if_neg fun same => stays (congrArg some same)]
    · rfl
  rw [on, last, Hub.ownerOf?_publishAll]
  exact ownerOf?_prepare sound owner

theorem ownerOf?_arrives : ((arrives p client will).on h).ownerOf? h.nextInbox = some client := by
  have registered : (h.register client will).1.ownerOf? h.nextInbox = some client := by
    rw [Hub.ownerOf?_register, if_pos rfl]
  cases p with
  | line i => exact registered
  | connection c => exact (Hub.ownerOf?_deliver _).trans registered

/-! ## Soundness -/

theorem sound_prepare (sound : h.Sound) (d : Dealing) : (d.prepare h).Sound := by
  cases d with
  | arrives p other will =>
    have registered := Hub.sound_register other will sound
    cases p with
    | line i => exact registered
    | connection c => exact Hub.sound_deliver registered _
  | subscribes p other filter qos => exact Hub.sound_subscribe filter other qos sound
  | unsubscribes p other filter => exact Hub.sound_unsubscribe other sound filter
  | publishes => exact sound
  | leaves p other graceful shuts => exact Hub.sound_cleanup_graceful other sound
  | empties other => exact Hub.sound_take sound other
  | takes other => exact Hub.sound_popped sound other
  | waits now => exact ⟨sound.mailbox, sound.fresh, sound.topics, sound.filed⟩

/-- Whether who leaves closes no inbox but its own. -/
def ClosesOwn (h : Hub) : Dealing → Prop
  | leaves _ client _ (some inbox) => h.ownerOf? inbox = some client
  | _ => True

theorem sound_on (sound : h.Sound) (own : d.ClosesOwn h) : (d.on h).Sound := by
  have said := Hub.sound_publishAll (d.notices h) (sound_prepare sound d)
  cases d with
  | leaves p client graceful shuts =>
    cases shuts with
    | none => exact said
    | some inbox =>
      -- nobody reads the inbox any more: its owner has been struck out
      refine Hub.sound_closeInbox said (said.unread ((Hub.ownerOf?_publishAll ..).trans own) ?_)
      rw [Hub.clients_publishAll]
      show (h.cleanup client true).broker.clients.get? client = none
      rw [Hub.broker_cleanup, Broker.clients_cleanup, KeyMap.get?_erase, if_pos rfl]
  | _ => exact said

/-! ## What waits -/

theorem framesIn_conclude (d : Dealing) (h : Hub) (inbox : Nat) :
    (d.conclude h).framesIn inbox <:+ h.framesIn inbox := by
  unfold conclude
  split
  · rw [Hub.framesIn_closeInbox]
    split
    · exact List.nil_suffix
    · exact List.suffix_refl _
  · exact List.suffix_refl _

theorem framesIn_prepare_unregistered (sound : h.Sound) (owner : h.ownerOf? inbox = some client)
    (unregistered : h.broker.clients.get? client = none) :
    (d.prepare h).framesIn inbox <:+ h.framesIn inbox := by
  cases d with
  | arrives p other will =>
    have registered := Hub.framesIn_register other will sound inbox
    have old : h.nextInbox ≠ inbox := Nat.ne_of_gt (sound.inbox_lt owner)
    cases p with
    | line i => exact registered ▸ List.suffix_refl _
    | connection c =>
      have none_here : ([⟨h.nextInbox, .accepted other⟩] : List (Post Nat)).filter
          (fun p => p.inbox = inbox) = [] := by simp [old]
      have same := Hub.framesIn_deliver (h := (h.register other will).1)
        fun some => absurd none_here some
      rw [none_here, registered] at same
      exact same.trans (List.append_nil _) ▸ List.suffix_refl _
  | subscribes p other filter qos =>
    have unread := sound.unread owner unregistered
    exact Hub.framesIn_subscribe_unread unread sound filter other qos ▸ List.suffix_refl _
  | empties other =>
    show (h.take other).1.framesIn inbox <:+ _
    rw [Hub.framesIn_take]
    split
    · exact List.nil_suffix
    · exact List.suffix_refl _
  | takes other =>
    show (h.popped other).framesIn inbox <:+ _
    rw [Hub.framesIn_popped]
    split
    · exact List.drop_suffix ..
    · exact List.suffix_refl _
  | _ => exact List.suffix_refl _

/-- **Nothing is put into the queues of a client that is not registered.** -/
theorem framesIn_on_unregistered (sound : h.Sound) (owner : h.ownerOf? inbox = some client)
    (unregistered : h.broker.clients.get? client = none) :
    (d.on h).framesIn inbox <:+ h.framesIn inbox := by
  -- even if the client has just come again, it reads another inbox now
  have unread : ∀ reader, (d.prepare h).inboxOf reader ≠ some inbox := by
    intro reader reads
    obtain ⟨r, registered, rfl⟩ := Option.map_eq_some_iff.1 reads
    rw [← clients_on] at registered
    rcases inbox_of_registration_on registered with old | new
    · exact sound.unread owner unregistered reader (congrArg (Option.map Registration.inbox) old)
    · exact absurd (sound.inbox_lt owner) (Nat.not_lt_of_ge (Nat.le_of_eq new.symm))
  have said := Hub.framesIn_publishAll_unread (d.notices h) (sound_prepare sound d) unread
  exact (framesIn_conclude d _ inbox).trans
    (said ▸ framesIn_prepare_unregistered sound owner unregistered)

/-! ## The end of a party -/

/-- What is published is put once into the queue of each client that owns its topic. -/
theorem framesIn_said (sound : h.Sound) (reads : h.inboxOf client = some inbox)
    (said : Option Message) :
    (said.elim h h.publish).framesIn inbox = h.framesIn inbox ++
      ((said.filter fun m => h.broker.owns m.topic client).map fun m =>
        ServerFrame.deliver { m.stamp h.now with retain := false }).toList := by
  cases said with
  | none => exact (List.append_nil _).symm
  | some m =>
    refine (Hub.framesIn_publish sound m inbox).trans ?_
    rw [sound.readerOf?_eq_some_iff.2 reads, Option.filter_some, Option.filter_some]
    cases h.broker.owns m.topic client <;> rfl

/-- What is published is kept if it is to be. -/
theorem get?_byTopic_said (h : Hub) (said : Option Message) (topic : String) :
    (said.elim h h.publish).broker.retained.byTopic.get? topic =
      match said.filter fun m => m.retain && m.topic = topic with
      | some m => Broker.Publication.kept? ⟨h.now, m⟩
      | none => h.broker.retained.byTopic.get? topic := by
  cases said with
  | none => rfl
  | some m =>
    show (h.broker.publish h.now m).1.retained.byTopic.get? topic = _
    rw [Broker.retained_publish, Option.filter_some]
    cases retains : m.retain with
    | false => rfl
    | true =>
      rw [if_pos rfl, Broker.get?_store, Hub.stamp_topic, Broker.kept_stamp ⟨h.now, m⟩,
        Bool.true_and]
      by_cases on_topic : m.topic = topic
      · rw [if_pos on_topic, decide_eq_true on_topic, if_pos rfl]
      · rw [if_neg on_topic, decide_eq_false on_topic, if_neg Bool.false_ne_true]

/-- What a client leaves of who owns a topic. -/
theorem owns_cleanup (sound : h.Sound) (other : client ≠ reader) (topic : String) :
    (h.cleanup client true).broker.owns topic reader = h.broker.owns topic reader := by
  have same : ∀ f, (h.cleanup client true).broker.subscribed f reader =
      h.broker.subscribed f reader := fun f => by
    rw [Hub.broker_cleanup, Broker.subscribed_cleanup, decide_eq_false other]
    exact Bool.and_true _
  rw [Bool.eq_iff_iff, (Hub.sound_cleanup_graceful client sound).filed.owns_iff,
    sound.filed.owns_iff]
  simp only [same]

/-- The end of a registered client's party: its registration and its subscriptions go
first, its will is published next. -/
theorem on_leaves (registered : h.broker.clients.get? client = some ⟨inbox, will⟩) :
    (leaves p client graceful shuts).on h =
      (leaves p client graceful shuts).conclude
        ((if graceful then none else will.map Will.toMessage).elim (h.cleanup client true)
          (h.cleanup client true).publish) := by
  refine congrArg (conclude · (leaves p client graceful shuts)) ?_
  cases graceful with
  | true => rfl
  | false =>
    show (h.cleanup client true).publishAll (h.bequest client) = _
    rw [Hub.bequest_of_registered registered]
    cases will <;> rfl

/-- **What the end of a party does.** -/
theorem parted_on (sound : h.Sound) (own : (leaves p client graceful shuts).ClosesOwn h)
    (registered : h.broker.clients.get? client = some ⟨inbox, will⟩) :
    Parted h ((leaves p client graceful shuts).on h) client
      (if graceful then none else will.map Will.toMessage) := by
  have struck := Hub.sound_cleanup_graceful client sound
  rw [on_leaves registered]
  generalize (if graceful then none else will.map Will.toMessage) = said
  refine ⟨fun reader j other reads => ?_, fun j owner => ?_, fun topic => ?_⟩
  · have reads' : (h.cleanup client true).inboxOf reader = some j := by
      rw [Hub.inboxOf_cleanup_graceful, if_neg other.symm, reads]
    have open_ : ∀ h' : Hub, ((leaves p client graceful shuts).conclude h').framesIn j =
        h'.framesIn j := fun h' => by
      cases shuts with
      | none => rfl
      | some inbox =>
        have apart : inbox ≠ j := fun same =>
          other (Option.some.inj ((sound.ownerOf?_of_inboxOf reads).symm.trans (same ▸ own)))
        exact (Hub.framesIn_closeInbox ..).trans (if_neg apart)
    rw [open_, framesIn_said struck reads']
    simp only [owns_cleanup sound other.symm]
    rfl
  · refine (framesIn_conclude _ _ j).trans ?_
    have unregistered : (h.cleanup client true).broker.clients.get? client = none := by
      rw [Hub.broker_cleanup, Broker.clients_cleanup, KeyMap.get?_erase, if_pos rfl]
    have unread : ∀ reader, (h.cleanup client true).inboxOf reader ≠ some j :=
      struck.unread owner unregistered
    cases said with
    | none => exact List.suffix_refl _
    | some m => exact Hub.framesIn_publish_unread unread struck m ▸ List.suffix_refl _
  · rw [broker_conclude, get?_byTopic_said]
    rfl

end Dealing

end TopicMesh
