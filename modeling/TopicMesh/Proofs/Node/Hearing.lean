import TopicMesh.Node.Basic
import TopicMesh.Proofs.Discovery.View

/-!
# What a frame does to a node

A frame that reaches a node is handed to callbacks, or is an announcement that goes
to discovery.  The first leaves the node as it is, its notes apart (`deliver_eq`); the
second changes what the node holds of the announced one (`hear_eq`).
-/

namespace TopicMesh

theorem Discovery.advertised_absorbInto {σ : Type} (d : Discovery) (t : RouteTable σ)
    (nodeTopic : String) (a : Announcement) :
    (d.absorbInto t nodeTopic a).1.advertised = d.advertised := by
  cases hs : a.status with
  | connected => rw [absorbInto_of_connected d t nodeTopic hs]
  | disconnected => rw [absorbInto_of_disconnected d t nodeTopic hs]

namespace Node

variable (n : Node)

/-- The node with other notes on its callbacks. -/
def withNotes (n : Node) (finished : List Nat) (chores : List String)
    (invoked : List (String × Delivery)) : Node :=
  { n with finished := finished, chores := chores, invoked := invoked }

theorem invoke_eq (callback : Callback) (d : Delivery) :
    ∃ finished chores invoked, n.invoke callback d = n.withNotes finished chores invoked := by
  unfold invoke
  cases callback.request with
  | none => exact ⟨n.finished, n.chores, _, rfl⟩
  | some request =>
    dsimp only
    split
    · exact ⟨n.finished, n.chores, n.invoked, rfl⟩
    · split
      · exact ⟨_, _, _, rfl⟩
      · exact ⟨n.finished, n.chores, _, rfl⟩

/-- A delivery changes nothing but the notes. -/
theorem deliver_eq (d : Delivery) :
    ∃ finished chores invoked, n.deliver d = n.withNotes finished chores invoked := by
  unfold deliver
  generalize n.subscriptions.callbacks d.topic = callbacks
  induction callbacks generalizing n with
  | nil => exact ⟨n.finished, n.chores, n.invoked, rfl⟩
  | cons callback rest ih =>
    obtain ⟨finished, chores, invoked, h⟩ := n.invoke_eq callback d
    rw [List.foldl_cons, h]
    obtain ⟨finished', chores', invoked', h'⟩ := ih (n.withNotes finished chores invoked)
    exact ⟨finished', chores', invoked', h'⟩

/-- What a node holds of others after a payload on an announcement topic. -/
def viewAfter (topic : String) (payload : Bytes) : Discovery × RouteTable Nat :=
  match Discovery.heard? n.config.discovery topic payload with
  | .ok (some a) => n.discovery.absorbInto n.table topic a
  | _ => (n.discovery, n.table)

/-- A payload on an announcement topic changes what the node holds of others, and
which of its sessions are to be closed. -/
theorem hear_eq (topic : String) (payload : Bytes) :
    ∃ sessions, n.hear topic payload =
      { n with
        discovery := (n.viewAfter topic payload).1
        table := (n.viewAfter topic payload).2
        sessions := sessions } := by
  unfold hear handleAnnouncement Discovery.handle Discovery.operations viewAfter
  cases Discovery.heard? n.config.discovery topic payload with
  | error e => exact ⟨n.sessions, rfl⟩
  | ok heard =>
    cases heard with
    | none => exact ⟨_, rfl⟩
    | some a => exact ⟨_, rfl⟩

/-- A payload on the node's own topic changes nothing. -/
theorem viewAfter_own (payload : Bytes) :
    n.viewAfter n.config.discovery.nodeTopic payload = (n.discovery, n.table) := by
  simp [viewAfter, Discovery.heard?]

theorem viewAfter_of_ne {topic : String} {payload : Bytes} (nonempty : payload ≠ [])
    (other : topic ≠ n.config.discovery.nodeTopic) :
    n.viewAfter topic payload =
      match Announcement.decode payload with
      | .ok a => n.discovery.absorbInto n.table topic a
      | .error _ => (n.discovery, n.table) := by
  have : payload.isEmpty = false := by simpa using nonempty
  unfold viewAfter Discovery.heard?
  rw [this]
  simp only [other, decide_false, Bool.or_false, Bool.false_eq_true, if_false]
  cases Announcement.decode payload <;> rfl

theorem advertised_viewAfter (topic : String) (payload : Bytes) :
    (n.viewAfter topic payload).1.advertised = n.discovery.advertised := by
  unfold viewAfter
  split
  · exact Discovery.advertised_absorbInto ..
  · rfl

/-- What a frame leaves as it is. -/
theorem onFrame_keeps (frame : ServerFrame) :
    (n.onFrame frame).config = n.config ∧ (n.onFrame frame).line = n.line ∧
      (n.onFrame frame).subscriptions = n.subscriptions ∧
      (n.onFrame frame).discovery.advertised = n.discovery.advertised := by
  cases frame with
  | accepted client => exact ⟨rfl, rfl, rfl, rfl⟩
  | refused reason => exact ⟨rfl, rfl, rfl, rfl⟩
  | deliver m =>
    show (n.onMessage m).config = _ ∧ (n.onMessage m).line = _ ∧ (n.onMessage m).subscriptions = _ ∧
      (n.onMessage m).discovery.advertised = _
    unfold onMessage
    split
    · obtain ⟨sessions, h⟩ := n.hear_eq m.topic m.payload
      rw [h]
      exact ⟨rfl, rfl, rfl, advertised_viewAfter ..⟩
    · obtain ⟨finished, chores, invoked, h⟩ := n.deliver_eq (.ofMessage m)
      rw [h]
      exact ⟨rfl, rfl, rfl, rfl⟩

end Node

end TopicMesh
