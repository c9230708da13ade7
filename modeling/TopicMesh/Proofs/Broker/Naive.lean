import Mathlib.Data.List.Basic
import TopicMesh.Proofs.Broker.Posting

/-!
# A broker is two lists and a queue for each inbox

A **naive broker** keeps a list of the registered clients and a list of the
subscriptions, which it searches from end to end, and appends the frames for a client
to the queue of its inbox.  What is asked of a broker (`Call`) has a plain meaning there.

A broker **represents** a naive one if it knows the same clients, subscriptions and
retained messages; its filters are in good order then (`Filed`).  Each call keeps that
and posts to every inbox what the naive broker appends to its queue
(`Represents.perform`), and so does every run of calls (`refines_naive`).
-/

namespace TopicMesh

namespace Broker

/-- A client's subscription of a filter. -/
structure Subscription where
  filter : String
  client : String
  qos : QoS
deriving DecidableEq, Repr

/-- What is asked of a broker; messages arrive, and clients are cleaned up, at a time. -/
inductive Call (ι : Type)
  | register (client : String) (r : Registration ι)
  | remove (client : String)
  | subscribe (filter client : String) (qos : QoS)
  | unsubscribe (filter client : String)
  | publish (now : Int64) (m : Message)
  | cleanup (now : Int64) (client : String) (graceful : Bool)
deriving DecidableEq, Repr

variable {ι : Type}

/-- The broker after a call, and the posts to make. -/
def perform (b : Broker ι) : Call ι → Broker ι × List (Post ι)
  | .register client r => (b.register client r, [])
  | .remove client => (b.remove client, [])
  | .subscribe filter client qos => b.subscribe filter client qos
  | .unsubscribe filter client => (b.unsubscribe filter client, [])
  | .publish now m => b.publish now m
  | .cleanup now client graceful => b.cleanup now client graceful

/-- The broker after some calls, and all posts, oldest first. -/
def run (b : Broker ι) : List (Call ι) → Broker ι × List (Post ι)
  | [] => (b, [])
  | c :: rest =>
    let (b, posts) := b.perform c
    let (b, others) := b.run rest
    (b, posts ++ others)

/-- The frames that are posted to an inbox. -/
def framesFor [DecidableEq ι] (inbox : ι) (posts : List (Post ι)) : List ServerFrame :=
  (posts.filter fun p => p.inbox = inbox).map Post.frame

end Broker

/-- **A naive broker.** -/
structure NaiveBroker (ι : Type) where
  /-- The registered clients with their names. -/
  clients : List (String × Registration ι)
  subscriptions : List Broker.Subscription
  retained : Retained
  /-- What was appended to the queue of an inbox, oldest first. -/
  queue : ι → List ServerFrame

namespace NaiveBroker

variable {ι : Type}

/-- Nobody is registered or subscribed, and nothing was sent. -/
def empty : NaiveBroker ι := ⟨[], [], .empty, fun _ => []⟩

/-- Strikes a client out. -/
def remove (n : NaiveBroker ι) (client : String) : NaiveBroker ι :=
  { n with clients := n.clients.filter fun e => e.1 ≠ client }

/-- Registers a client, in the place of an earlier one with its name. -/
def register (n : NaiveBroker ι) (client : String) (r : Registration ι) : NaiveBroker ι :=
  { n with clients := (client, r) :: (n.remove client).clients }

/-- Ends a client's subscription of a filter. -/
def unsubscribe (n : NaiveBroker ι) (filter client : String) : NaiveBroker ι :=
  { n with subscriptions := n.subscriptions.filter fun s => ¬(s.filter = filter ∧ s.client = client) }

/-- Subscribes a filter for a client, which may have asked for another guarantee before. -/
def enlist (n : NaiveBroker ι) (filter client : String) (qos : QoS) : NaiveBroker ι :=
  { n with subscriptions := ⟨filter, client, qos⟩ :: (n.unsubscribe filter client).subscriptions }

/-- Keeps a message that arrives at a time, if it is to be kept. -/
def keep (n : NaiveBroker ι) (now : Int64) (m : Message) : NaiveBroker ι :=
  { n with retained := if m.retain then n.retained.store now m else n.retained }

/-- Strikes a client and its subscriptions out. -/
def strike (n : NaiveBroker ι) (client : String) : NaiveBroker ι :=
  { n.remove client with subscriptions := n.subscriptions.filter fun s => s.client ≠ client }

/-- Whether a client owns a filter that a topic matches. -/
def owns (n : NaiveBroker ι) (topic client : String) : Bool :=
  n.subscriptions.any fun s => s.client = client && Filter.topicMatches s.filter topic

/-- The will of a registered client. -/
def will? (n : NaiveBroker ι) (client : String) : Option Will :=
  (n.clients.find? fun e => e.1 = client).bind fun e => e.2.will

section

variable [DecidableEq ι]

/-- Appends frames to the queues of some clients, for each of them that is registered. -/
def tell (n : NaiveBroker ι) (who : String → Bool) (frames : List ServerFrame) : NaiveBroker ι :=
  { n with
    queue := fun inbox => n.queue inbox ++
      (n.clients.filter fun e => who e.1 && e.2.inbox = inbox).flatMap fun _ => frames }

/-- Subscribes a filter for a client and tells it the retained messages that match.  An
invalid filter is refused. -/
def subscribe (n : NaiveBroker ι) (filter client : String) (qos : QoS) : NaiveBroker ι :=
  if Filter.isValid filter then
    (n.enlist filter client qos).tell (· = client) ((n.retained.matching filter).map .deliver)
  else n.tell (· = client) [.refused s!"invalid filter '{filter}'"]

/-- Publishes a message: it is kept if it is to be, and told to its owners, with the
mark of retained messages cleared. -/
def publish (n : NaiveBroker ι) (now : Int64) (m : Message) : NaiveBroker ι :=
  let m := m.stamp now
  (n.keep now m).tell (n.owns m.topic) [.deliver { m with retain := false }]

/-- Ends everything that a client has at the broker, and publishes its will unless the
client took its leave. -/
def cleanup (n : NaiveBroker ι) (now : Int64) (client : String) (graceful : Bool) : NaiveBroker ι :=
  match if graceful then none else n.will? client with
  | none => n.strike client
  | some w => (n.strike client).publish now w.toMessage

/-- The naive broker after a call. -/
def perform (n : NaiveBroker ι) : Broker.Call ι → NaiveBroker ι
  | .register client r => n.register client r
  | .remove client => n.remove client
  | .subscribe filter client qos => n.subscribe filter client qos
  | .unsubscribe filter client => n.unsubscribe filter client
  | .publish now m => n.publish now m
  | .cleanup now client graceful => n.cleanup now client graceful

/-- The naive broker after some calls. -/
def run (n : NaiveBroker ι) (calls : List (Broker.Call ι)) : NaiveBroker ι :=
  calls.foldl perform n

end

end NaiveBroker

namespace Broker

variable {ι : Type}

/-- **Whether a broker knows what a naive broker knows.** -/
structure Represents (b : Broker ι) (n : NaiveBroker ι) : Prop where
  clients : ∀ client r, (client, r) ∈ n.clients ↔ b.clients.get? client = some r
  /-- No client is registered twice. -/
  distinct : (n.clients.map Prod.fst).Nodup
  subscriptions : ∀ s, s ∈ n.subscriptions ↔ b.qos? s.filter s.client = some s.qos
  /-- Each filter is valid, kept under its own name, and has a subscriber. -/
  filed : b.Filed
  retained : b.retained = n.retained

/-- **What a broker posts next**, by what a naive broker knows. -/
structure Serves [DecidableEq ι] (b : Broker ι) (n : NaiveBroker ι) : Prop where
  /-- A message goes once to every registered client that owns its topic, and to nobody
  else; but for the mark of retained messages it is as it was published. -/
  publish : ∀ now m inbox, framesFor inbox (b.publish now m).2 =
    (n.clients.filter fun e => n.owns m.topic e.1 && e.2.inbox = inbox).map fun _ =>
      .deliver { m.stamp now with retain := false }
  /-- An inbox that is the client's own gets one frame, or none. -/
  own : ∀ now m client r, b.clients.get? client = some r →
    (∀ other r', b.clients.get? other = some r' → r'.inbox = r.inbox → other = client) →
    framesFor r.inbox (b.publish now m).2 =
      if n.owns m.topic client then [.deliver { m.stamp now with retain := false }] else []
  /-- An invalid filter changes nothing, and its client is told so. -/
  refuse : ∀ filter client qos, Filter.isValid filter = false →
    b.subscribe filter client qos = (b, b.postTo client (.refused s!"invalid filter '{filter}'"))

/-! ## Posts -/

theorem posts_of_publish (b : Broker ι) (now : Int64) (m : Message) :
    (b.publish now m).2 =
      b.postsTo (b.owns m.topic) [.deliver { m.stamp now with retain := false }] := by
  unfold publish recipients postsTo
  dsimp only
  rw [Hub.stamp_topic, List.map_eq_flatMap]
  rfl

section

variable [DecidableEq ι]

theorem framesFor_append (inbox : ι) (posts others : List (Post ι)) :
    framesFor inbox (posts ++ others) = framesFor inbox posts ++ framesFor inbox others := by
  rw [framesFor, List.filter_append, List.map_append]
  rfl

theorem framesFor_postsTo (b : Broker ι) (who : String → Bool) (frames : List ServerFrame)
    (inbox : ι) : framesFor inbox (b.postsTo who frames) =
      (b.clients.entries.filter fun e => who e.1 && e.2.inbox = inbox).flatMap fun _ => frames := by
  unfold framesFor postsTo
  induction b.clients.entries with
  | nil => rfl
  | cons e rest ih =>
    rw [List.filter_cons, List.filter_cons]
    cases who e.1 with
    | false => exact ih
    | true =>
      rw [if_pos rfl, List.flatMap_cons, List.filter_append, List.map_append, ih,
        Hub.filter_posts_to, Bool.true_and]
      by_cases here : e.2.inbox = inbox
      · rw [if_pos here, if_pos (decide_eq_true here), List.flatMap_cons]
      · rw [if_neg here, if_neg (by simpa using here), List.nil_append]

/-- An inbox that is a client's own gets what is posted to the client, and no more. -/
theorem framesFor_postsTo_own {b : Broker ι} {client : String} {r : Registration ι}
    (registered : b.clients.get? client = some r)
    (alone : ∀ other r', b.clients.get? other = some r' → r'.inbox = r.inbox → other = client)
    (who : String → Bool) (frames : List ServerFrame) :
    framesFor r.inbox (b.postsTo who frames) = if who client then frames else [] := by
  -- of the registered clients only this one has the inbox
  have only : ∀ e ∈ b.clients.entries, (who e.1 && decide (e.2.inbox = r.inbox)) =
      (decide (e.1 = client) && who client) := by
    rintro ⟨other, r'⟩ there
    have found := KeyMap.mem_entries_iff.1 there
    by_cases here : other = client
    · subst here
      obtain rfl : r = r' := Option.some.inj (registered.symm.trans found)
      simp
    · have elsewhere : r'.inbox ≠ r.inbox := fun shared => here (alone other r' found shared)
      simp [here, elsewhere]
  rw [framesFor_postsTo, List.filter_congr only]
  cases who client with
  | false => simp
  | true =>
    simp only [Bool.and_true, if_true]
    rw [KeyMap.filter_entries_key, registered]
    exact List.append_nil frames

/-- What is said as often as a list is long does not depend on the order of the list. -/
theorem flatMap_const_of_perm {α β : Type} {l l' : List α} (h : l.Perm l') (said : List β) :
    (l.flatMap fun _ => said) = l'.flatMap fun _ => said := by
  rw [List.flatMap_def, List.flatMap_def, List.map_const', List.map_const', h.length_eq]

end

/-! ## What is known -/

variable {b : Broker ι} {n : NaiveBroker ι}

theorem represents_empty : (empty : Broker ι).Represents .empty where
  clients _ _ := ⟨nofun, nofun⟩
  distinct := List.nodup_nil
  subscriptions _ := ⟨nofun, nofun⟩
  filed := filed_empty
  retained := rfl

namespace Represents

/-- The lists of the clients hold the same. -/
theorem perm (same : b.Represents n) : b.clients.entries.Perm n.clients := by
  have listed : n.clients.Nodup :=
    List.Pairwise.of_map Prod.fst (fun _ _ ne same => ne (congrArg Prod.fst same)) same.distinct
  have kept : b.clients.entries.Nodup :=
    b.clients.entries_distinct.imp fun ne same => ne (congrArg Prod.fst same)
  -- neither list has a client twice, so that equal members are enough
  refine (List.perm_ext_iff_of_nodup kept listed).2 ?_
  rintro ⟨client, r⟩
  rw [KeyMap.mem_entries_iff, same.clients]

theorem owns_eq (same : b.Represents n) (topic client : String) :
    b.owns topic client = n.owns topic client := by
  rw [Bool.eq_iff_iff, same.filed.owns_iff, NaiveBroker.owns, List.any_eq_true]
  constructor
  · rintro ⟨filter, matching, listed⟩
    obtain ⟨qos, listed⟩ := Option.isSome_iff_exists.1 listed
    refine ⟨⟨filter, client, qos⟩, (same.subscriptions _).2 listed, ?_⟩
    exact Bool.and_eq_true_iff.2 ⟨decide_eq_true rfl, matching⟩
  · rintro ⟨s, listed, owned⟩
    obtain ⟨here, matching⟩ := Bool.and_eq_true_iff.1 owned
    obtain rfl : s.client = client := of_decide_eq_true here
    exact ⟨s.filter, matching, Option.isSome_iff_exists.2 ⟨s.qos, (same.subscriptions s).1 listed⟩⟩

theorem will_eq (same : b.Represents n) (client : String) :
    (b.clients.get? client).bind Registration.will = n.will? client := by
  unfold NaiveBroker.will?
  cases found : n.clients.find? fun e => e.1 = client with
  | some e =>
    obtain rfl : e.1 = client := by simpa using List.find?_some found
    rw [(same.clients e.1 e.2).1 (List.mem_of_find?_eq_some found)]
    rfl
  | none =>
    cases there : b.clients.get? client with
    | none => rfl
    | some r =>
      have listed := (same.clients client r).2 there
      exact absurd (decide_eq_true rfl) (List.find?_eq_none.1 found _ listed)

theorem register (same : b.Represents n) (client : String) (r : Registration ι) :
    (b.register client r).Represents (n.register client r) where
  clients other r' := by
    show (other, r') ∈ (client, r) :: n.clients.filter _ ↔ (b.clients.insert client r).get? other = _
    rw [KeyMap.get?_insert, List.mem_cons, List.mem_filter, same.clients]
    by_cases here : client = other
    · simp [here, eq_comm]
    · simp [here, Ne.symm here]
  distinct := by
    refine List.nodup_cons.2 ⟨?_, (List.filter_sublist.map _).nodup same.distinct⟩
    simp [NaiveBroker.remove]
  subscriptions := same.subscriptions
  filed := same.filed
  retained := same.retained

theorem remove (same : b.Represents n) (client : String) :
    (b.remove client).Represents (n.remove client) where
  clients other r := by
    show (other, r) ∈ n.clients.filter _ ↔ (b.clients.erase client).get? other = _
    rw [KeyMap.get?_erase, List.mem_filter, same.clients]
    by_cases here : client = other
    · simp [here]
    · simp [here, Ne.symm here]
  distinct := (List.filter_sublist.map _).nodup same.distinct
  subscriptions := same.subscriptions
  filed := same.filed
  retained := same.retained

theorem unsubscribe (same : b.Represents n) (filter client : String) :
    (b.unsubscribe filter client).Represents (n.unsubscribe filter client) where
  clients := same.clients
  distinct := same.distinct
  subscriptions s := by
    show s ∈ n.subscriptions.filter _ ↔ _
    rw [qos?_unsubscribe, List.mem_filter, same.subscriptions]
    by_cases here : filter = s.filter ∧ client = s.client
    · simp [here]
    · have there : ¬(s.filter = filter ∧ s.client = client) :=
        fun both => here ⟨both.1.symm, both.2.symm⟩
      rw [if_neg here, decide_eq_true there, and_iff_left rfl]
  filed := same.filed.unsubscribe filter client
  retained := same.retained

theorem strike (same : b.Represents n) (now : Int64) (client : String) :
    (b.cleanup now client true).1.Represents (n.strike client) where
  clients := (same.remove client).clients
  distinct := (same.remove client).distinct
  subscriptions s := by
    show s ∈ n.subscriptions.filter _ ↔ _
    rw [qos?_cleanup, List.mem_filter, same.subscriptions]
    by_cases here : client = s.client
    · simp [here]
    · simp [here, Ne.symm here]
  filed := same.filed.cleanup now client true
  retained := same.retained

variable [DecidableEq ι]

/-- What is told is no matter of what is known. -/
theorem tell (same : b.Represents n) (who : String → Bool) (frames : List ServerFrame) :
    b.Represents (n.tell who frames) :=
  ⟨same.clients, same.distinct, same.subscriptions, same.filed, same.retained⟩

/-- What is posted to some clients is what is told to them. -/
theorem queue_tell (same : b.Represents n) (who : String → Bool) (frames : List ServerFrame)
    (inbox : ι) : (n.tell who frames).queue inbox =
      n.queue inbox ++ framesFor inbox (b.postsTo who frames) := by
  rw [framesFor_postsTo]
  exact congrArg (n.queue inbox ++ ·) (flatMap_const_of_perm (same.perm.filter _) frames).symm

omit [DecidableEq ι] in
theorem enlist (same : b.Represents n) {filter : String} (valid : Filter.isValid filter = true)
    (client : String) (qos : QoS) :
    (b.subscribe filter client qos).1.Represents (n.enlist filter client qos) where
  clients := by
    rw [clients_subscribe]
    exact same.clients
  distinct := same.distinct
  subscriptions s := by
    show s ∈ _ :: (n.unsubscribe filter client).subscriptions ↔ _
    rw [qos?_subscribe, List.mem_cons, (same.unsubscribe filter client).subscriptions,
      qos?_unsubscribe]
    by_cases here : filter = s.filter ∧ client = s.client
    · -- the subscription itself, with the guarantee that is asked for now
      obtain ⟨rfl, rfl⟩ := here
      rw [if_pos ⟨rfl, rfl⟩, if_pos ⟨valid, rfl, rfl⟩, or_iff_left (Option.some_ne_none _).symm,
        Option.some.injEq]
      obtain ⟨filter, client, qos'⟩ := s
      simp [eq_comm]
    · rw [if_neg here, if_neg fun all => here all.2]
      exact or_iff_right fun same => here (same ▸ ⟨rfl, rfl⟩)
  filed := same.filed.subscribe filter client qos
  retained := by
    rw [retained_subscribe]
    exact same.retained

theorem subscribe (same : b.Represents n) (filter client : String) (qos : QoS) :
    (b.subscribe filter client qos).1.Represents (n.subscribe filter client qos) ∧
      ∀ inbox, (n.subscribe filter client qos).queue inbox =
        n.queue inbox ++ framesFor inbox (b.subscribe filter client qos).2 := by
  rw [posts_of_subscribe, NaiveBroker.subscribe, same.retained]
  by_cases valid : Filter.isValid filter = true
  · rw [if_pos valid, if_pos valid]
    exact ⟨(same.enlist valid client qos).tell _ _,
      same.queue_tell (· = client) ((n.retained.matching filter).map .deliver)⟩
  · rw [if_neg valid, if_neg valid, show b.subscribe filter client qos = (b, _) from if_neg valid]
    exact ⟨same.tell _ _, same.queue_tell _ _⟩

theorem publish (same : b.Represents n) (now : Int64) (m : Message) :
    (b.publish now m).1.Represents (n.publish now m) ∧
      ∀ inbox, (n.publish now m).queue inbox =
        n.queue inbox ++ framesFor inbox (b.publish now m).2 := by
  have kept : (b.publish now m).1.Represents (n.keep now (m.stamp now)) :=
    ⟨same.clients, same.distinct, same.subscriptions, same.filed, by
      rw [NaiveBroker.keep, ← same.retained]
      rfl⟩
  have owners : b.owns m.topic = n.owns (m.stamp now).topic := by
    rw [Hub.stamp_topic]
    exact funext (same.owns_eq m.topic)
  rw [posts_of_publish, owners]
  exact ⟨kept.tell _ _, same.queue_tell (n.owns (m.stamp now).topic)
    [.deliver { m.stamp now with retain := false }]⟩

theorem cleanup (same : b.Represents n) (now : Int64) (client : String) (graceful : Bool) :
    (b.cleanup now client graceful).1.Represents (n.cleanup now client graceful) ∧
      ∀ inbox, (n.cleanup now client graceful).queue inbox =
        n.queue inbox ++ framesFor inbox (b.cleanup now client graceful).2 := by
  have struck := same.strike now client
  have quiet (inbox : ι) : n.queue inbox = n.queue inbox ++ framesFor inbox [] :=
    (List.append_nil _).symm
  cases graceful with
  | true => exact ⟨struck, quiet⟩
  | false =>
    rw [cleanup_ungraceful, NaiveBroker.cleanup, if_neg Bool.false_ne_true, ← same.will_eq]
    cases (b.clients.get? client).bind Registration.will with
    | none => exact ⟨struck, quiet⟩
    -- the will goes to those who are left
    | some w => exact struck.publish now w.toMessage

/-- **A call keeps a broker the naive one**, and posts to an inbox what goes to its queue. -/
theorem perform (same : b.Represents n) (c : Call ι) :
    (b.perform c).1.Represents (n.perform c) ∧
      ∀ inbox, (n.perform c).queue inbox = n.queue inbox ++ framesFor inbox (b.perform c).2 := by
  have quiet (inbox : ι) : n.queue inbox = n.queue inbox ++ framesFor inbox [] :=
    (List.append_nil _).symm
  cases c with
  | register client r => exact ⟨same.register client r, quiet⟩
  | remove client => exact ⟨same.remove client, quiet⟩
  | subscribe filter client qos => exact same.subscribe filter client qos
  | unsubscribe filter client => exact ⟨same.unsubscribe filter client, quiet⟩
  | publish now m => exact same.publish now m
  | cleanup now client graceful => exact same.cleanup now client graceful

theorem run (same : b.Represents n) (calls : List (Call ι)) :
    (b.run calls).1.Represents (n.run calls) ∧
      ∀ inbox, (n.run calls).queue inbox = n.queue inbox ++ framesFor inbox (b.run calls).2 := by
  induction calls generalizing b n with
  | nil => exact ⟨same, fun inbox => (List.append_nil _).symm⟩
  | cons c rest ih =>
    obtain ⟨after, queue⟩ := same.perform c
    obtain ⟨later, further⟩ := ih after
    refine ⟨later, fun inbox => (further inbox).trans ?_⟩
    show _ = n.queue inbox ++ framesFor inbox ((b.perform c).2 ++ ((b.perform c).1.run rest).2)
    rw [queue, framesFor_append, List.append_assoc]

/-- A broker serves what it knows. -/
theorem serves (same : b.Represents n) : b.Serves n where
  publish now m inbox := by
    rw [posts_of_publish, framesFor_postsTo, funext (same.owns_eq m.topic), List.map_eq_flatMap]
    exact flatMap_const_of_perm (same.perm.filter _) _
  own now m client r registered alone := by
    rw [posts_of_publish, framesFor_postsTo_own registered alone, same.owns_eq]
  refuse filter client qos invalid := if_neg (Bool.eq_false_iff.1 invalid)

end Represents

variable [DecidableEq ι]

/-- **A broker is a naive broker.**  After any calls it knows what the naive broker knows
after the same calls, has posted to every inbox what that has in its queue, and goes on
to serve it. -/
theorem refines_naive (calls : List (Call ι)) :
    ((empty : Broker ι).run calls).1.Represents (NaiveBroker.empty.run calls) ∧
      (∀ inbox, framesFor inbox ((empty : Broker ι).run calls).2 =
        (NaiveBroker.empty.run calls).queue inbox) ∧
      ((empty : Broker ι).run calls).1.Serves (NaiveBroker.empty.run calls) := by
  obtain ⟨same, queue⟩ := represents_empty.run calls
  exact ⟨same, fun inbox => (queue inbox).symm, same.serves⟩

/-- Two filters match, one delivery is made. -/
example :
    framesFor 7 ((empty : Broker Nat).run
      [.register "c" ⟨7, none⟩, .subscribe "a/+" "c" .atMostOnce, .subscribe "#" "c" .atMostOnce,
        .publish 5 (.plain "a/b" [] .atMostOnce false)]).2 =
      [.deliver { Message.plain "a/b" [] .atMostOnce false with timestamp := 5 }] := by
  decide

end Broker

end TopicMesh
