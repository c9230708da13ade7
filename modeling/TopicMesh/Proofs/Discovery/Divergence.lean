import TopicMesh.Proofs.Discovery.History

/-!
# Where routes and announcements part

An announcement carries all that its node serves, but it is taken in as a change: it sets
the routes that it lists and retires the ports that the node has moved away from.  All
other routes stay until their node leaves.  Two things follow, and each is given here with
its exact condition.

A topic that a node **withdraws** is listed no more, and so its route stays as it was.  A
node that joins late hears the newest announcement only; it lacks the routes that are left
over in this way, and no others (`late_joiner_lacks_left_over`).

A port that a node **moves away from** is retired for its host.  If another node on that
host lists the topic at the same port, its route goes as well (`neighbour_erased_iff`).
-/

namespace TopicMesh

/-- Whether a node has listed a topic and, without having left, lists it no more. -/
def LeftOver (history : List Announcement) (newest : Announcement) (topic : String) : Prop :=
  newest.status = .connected ∧ newest.topics.get? topic = none ∧ lastListed history topic ≠ none

instance (history : List Announcement) (newest : Announcement) (topic : String) :
    Decidable (LeftOver history newest topic) :=
  inferInstanceAs (Decidable (_ ∧ _ ∧ _))

/-- A topic is left over as it was listed last. -/
theorem lastListed_of_leftOver {history : List Announcement} {newest : Announcement}
    {topic : String} (left : LeftOver history newest topic) :
    ∃ cap, lastListed history topic = some cap ∧
      lastListed (history ++ [newest]) topic = some cap ∧ lastListed [newest] topic = none := by
  obtain ⟨connected, unlisted, before⟩ := left
  obtain ⟨cap, listed⟩ := Option.ne_none_iff_exists'.1 before
  refine ⟨cap, listed, ?_, ?_⟩
  · rw [lastListed_concat, connected, unlisted, listed]
    rfl
  · rw [← List.nil_append [newest], lastListed_concat, connected, unlisted]
    rfl

/-- The newest announcement alone says the same of a topic as all of them, unless it leaves
the topic over. -/
theorem lastListed_concat_eq_iff (history : List Announcement) (newest : Announcement)
    (topic : String) :
    lastListed (history ++ [newest]) topic = lastListed [newest] topic ↔
      ¬LeftOver history newest topic := by
  constructor
  · intro same left
    obtain ⟨cap, -, kept, unheard⟩ := lastListed_of_leftOver left
    rw [kept, unheard] at same
    cases same
  · intro settled
    have alone := lastListed_concat [] newest topic
    rw [List.nil_append] at alone
    rw [lastListed_concat, alone]
    cases connected : newest.status with
    | disconnected => rfl
    | connected =>
      dsimp only
      cases listed : newest.topics.get? topic with
      | some cap => rfl
      | none =>
        have unheard : lastListed history topic = none :=
          Decidable.not_not.1 fun before => settled ⟨connected, listed, before⟩
        rw [unheard]
        rfl

/-- Whether the newest announcement of a node lists a route. -/
def Vouches (heard : List (String × Announcement)) (node : String) (p : Place) : Prop :=
  ∃ a, (announcementsOn node heard).getLast? = some a ∧ a.status = .connected ∧
    a.host = p.host ∧ (a.topics.get? p.topic).map Capability.port = some p.port

namespace Outlook

open Discovery

variable {σ : Type} [DecidableEq σ] {c c' : DiscoveryConfig}

/-! ## Withdrawn topics -/

/-- **One who has heard only the newest announcement of a node lacks the routes that are
left over, and no others.**  On any other topic it holds the same routes to the node's host
as one who has heard all announcements.  On a topic that is left over it holds none, and
the other one holds the route that the node listed last, which goes when the node leaves. -/
theorem late_joiner_lacks_left_over {early late : List (Event σ)} {node host : String}
    {history : List Announcement} {newest : Announcement}
    (all : announcementsOn node (heard c early) = history ++ [newest])
    (one : announcementsOn node (heard c' late) = [newest])
    (paired : Paired node host (heard c early)) (paired' : Paired node host (heard c' late))
    (topic : String) :
    ((run c early).table.capabilities topic host = (run c' late).table.capabilities topic host ↔
      ¬LeftOver history newest topic) ∧
    (LeftOver history newest topic →
      (∃ cap, lastListed history topic = some cap ∧
        (run c early).table.capabilities topic host = [cap]) ∧
      (run c' late).table.capabilities topic host = []) ∧
    (newest.status = .disconnected → (run c early).table.capabilities topic host = []) := by
  have before := capabilities_run paired topic
  have after := capabilities_run paired' topic
  rw [all] at before
  rw [one] at after
  rw [before, after]
  refine ⟨?_, ?_, ?_⟩
  · rw [← lastListed_concat_eq_iff]
    refine ⟨fun same => ?_, congrArg Option.toList⟩
    have heads := congrArg List.head? same
    rwa [Option.head?_toList, Option.head?_toList] at heads
  · intro left
    obtain ⟨cap, listed, kept, unheard⟩ := lastListed_of_leftOver left
    rw [kept, unheard]
    exact ⟨⟨cap, listed, rfl⟩, rfl⟩
  · intro leaves
    rw [lastListed_concat, leaves]
    rfl

/-- A node serves two topics, then one of them, which it has moved. -/
def withdrawal : List Announcement :=
  [⟨.connected, "h", .ofList [("s", ⟨.stream, 1⟩), ("t", ⟨.stream, 2⟩)]⟩,
    ⟨.connected, "h", .ofList [("s", ⟨.datagram, 3⟩)]⟩]

/-- The moved topic is seen alike; of the withdrawn one only who heard it has the route. -/
theorem late_joiner_after_withdrawal :
    let c : DiscoveryConfig := ⟨"me", "here", "d", true⟩
    let early : List (Event Nat) := withdrawal.map (.announced "d/n")
    let late : List (Event Nat) := (withdrawal.drop 1).map (.announced "d/n")
    (run c early).table.capabilities "s" "h" = (run c late).table.capabilities "s" "h" ∧
      (run c early).table.capabilities "t" "h" = [⟨.stream, 2⟩] ∧
      (run c late).table.capabilities "t" "h" = [] := by
  intro c early late
  have all : announcementsOn "d/n" (heard c early) = withdrawal.take 1 ++ [withdrawal[1]] := by
    decide +kernel
  have one : announcementsOn "d/n" (heard c late) = [withdrawal[1]] := by decide +kernel
  have paired : Paired "d/n" "h" (heard c early) := by decide +kernel
  have paired' : Paired "d/n" "h" (heard c late) := by decide +kernel
  have lacks := late_joiner_lacks_left_over all one paired paired'
  obtain ⟨⟨cap, listed, kept⟩, gone⟩ := (lacks "t").2.1 (by decide +kernel)
  have is : lastListed (withdrawal.take 1) "t" = some ⟨.stream, 2⟩ := by decide +kernel
  obtain rfl := Option.some.inj (is.symm.trans listed)
  exact ⟨(lacks "s").1.2 (by decide +kernel), kept, gone⟩

/-- Routes depend on when a node joined. -/
theorem not_always_agreeing :
    ¬∀ (c c' : DiscoveryConfig) (early late : List (Event Nat)) (node host : String)
      (history : List Announcement) (newest : Announcement),
      announcementsOn node (heard c early) = history ++ [newest] →
      announcementsOn node (heard c' late) = [newest] →
      Paired node host (heard c early) → Paired node host (heard c' late) →
      ∀ topic, (run c early).table.capabilities topic host =
        (run c' late).table.capabilities topic host := by
  intro always
  let c : DiscoveryConfig := ⟨"me", "here", "d", true⟩
  have agree := always c c (withdrawal.map (.announced "d/n"))
    ((withdrawal.drop 1).map (.announced "d/n")) "d/n" "h" (withdrawal.take 1) withdrawal[1]
    (by decide +kernel) (by decide +kernel) (by decide +kernel) (by decide +kernel) "t"
  revert agree
  decide +kernel

/-! ## Shared hosts -/

/-- Whether there is a route that the newest announcement of another node lists. -/
structure NeighbourRoute (c : DiscoveryConfig) (events : List (Event σ)) (node : String)
    (p : Place) : Prop where
  vouched : ∃ other, other ≠ node ∧ Vouches (heard c events) other p
  present : (run c events).table.at? p ≠ none

/-- **A node takes away the route of another one on its host** just if it had listed the
topic at the same port itself, and lists it at another port now. -/
theorem neighbour_erased_iff {events : List (Event σ)} {e : Event σ} {node : String}
    {a : Announcement} {p : Place} (heard_now : e.heard? c = some (node, a))
    (connected : a.status = .connected) (route : NeighbourRoute c events node p) :
    ((run c events).step c e).1.table.at? p = none ↔
      a.host = p.host ∧
        (lastListed (announcementsOn node (heard c events)) p.topic).map Capability.port =
          some p.port ∧
        ∃ cap, a.topics.get? p.topic = some cap ∧ p.port ≠ cap.port := by
  have present := route.present
  rw [step_of_heard _ heard_now, ← known?_run]
  unfold RouteTable.at? at present ⊢
  by_cases named : a.host = p.host
  · have becomes := route?_absorbInto_of_connected (run c events).discovery
      (run c events).table node connected p.topic p.port
    rw [named] at becomes
    dsimp only
    rw [becomes]
    cases listed : a.topics.get? p.topic with
    | none => simp [present]
    | some cap =>
      dsimp only
      by_cases here : p.port = cap.port
      · simp [here]
      · rw [if_neg here]
        by_cases known : (run c events).discovery.known? node p.topic = some p.port
        · simp [known, named, here]
        · simp [known, present]
  · dsimp only
    rw [route?_absorbInto_of_ne _ _ _ named]
    simp [present, named]

/-- Two nodes of one host serve a topic through the broker, at port 0. -/
def shared : List (Event Nat) :=
  ["d/a", "d/b"].map fun node => .announced node ⟨.connected, "h", .ofList [("t", ⟨.broker, 0⟩)]⟩

/-- One of them comes to serve the topic over a stream. -/
def moved : Announcement := ⟨.connected, "h", .ofList [("t", ⟨.stream, 7000⟩)]⟩

theorem neighbourRoute_shared :
    NeighbourRoute ⟨"me", "here", "d", true⟩ shared "d/a" ⟨"t", "h", 0⟩ :=
  ⟨⟨"d/b", by decide, ⟨.connected, "h", .ofList [("t", ⟨.broker, 0⟩)]⟩, by decide +kernel, rfl, rfl,
    by decide +kernel⟩, by decide +kernel⟩

/-- The other one's route is gone. -/
theorem neighbour_erased_after_move :
    ((run ⟨"me", "here", "d", true⟩ shared).step ⟨"me", "here", "d", true⟩
      (.announced "d/a" moved)).1.table.at? ⟨"t", "h", 0⟩ = none :=
  (neighbour_erased_iff (a := moved) (by decide +kernel) rfl neighbourRoute_shared).2
    ⟨rfl, by decide +kernel, ⟨.stream, 7000⟩, by decide +kernel, by decide⟩

/-- Nodes on one host may take away each other's routes. -/
theorem not_always_spared :
    ¬∀ (c : DiscoveryConfig) (events : List (Event Nat)) (e : Event Nat) (node : String)
      (a : Announcement) (p : Place), e.heard? c = some (node, a) → a.status = .connected →
      NeighbourRoute c events node p → ((run c events).step c e).1.table.at? p ≠ none := by
  intro always
  have spared := always ⟨"me", "here", "d", true⟩ shared (.announced "d/a" moved) "d/a" moved
    ⟨"t", "h", 0⟩ (by decide +kernel) rfl neighbourRoute_shared
  revert spared
  decide +kernel

end Outlook

end TopicMesh
