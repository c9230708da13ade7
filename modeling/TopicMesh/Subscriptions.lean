import TopicMesh.KeyMap
import TopicMesh.Protocol

/-!
# Subscriptions of a node

For each topic that a node has subscribed it keeps a record: the **callbacks**, in
the order in which they joined, and the **endpoint** where the topic's traffic
arrives.  A topic has one record.  Who comes second joins the record of the first,
and the endpoint that was offered for the second is handed back, to be closed.

Callbacks are told apart by an identity of any type `γ`.
-/

namespace TopicMesh

/-- Where the traffic of a subscribed topic arrives. -/
inductive Endpoint
  /-- At the control broker. -/
  | broker
  /-- At a listener of a direct transport. -/
  | direct (protocol : Protocol) (port : UInt16)
  /-- At a listener for peer sessions. -/
  | peer (port : UInt16)
deriving DecidableEq, Repr, Inhabited

namespace Endpoint

/-- The protocol that traffic arrives by. -/
def protocol : Endpoint → Protocol
  | broker => .broker
  | direct p _ => p
  | peer _ => .peerRtc

/-- The port that is announced. -/
def port : Endpoint → UInt16
  | broker => 0
  | direct _ n => n
  | peer n => n

end Endpoint

/-- The record of a subscribed topic. -/
structure Subscription (γ : Type) where
  /-- The callbacks, in the order in which they joined. -/
  callbacks : List γ
  endpoint : Endpoint
  qos : QoS
  /-- Whether other nodes are told. -/
  advertised : Bool
deriving DecidableEq, Repr

/-- The record with one more callback, unless it is there already. -/
def Subscription.join {γ : Type} [DecidableEq γ] (s : Subscription γ) (callback : γ) :
    Subscription γ :=
  if callback ∈ s.callbacks then s else { s with callbacks := s.callbacks ++ [callback] }

theorem Subscription.endpoint_join {γ : Type} [DecidableEq γ] (s : Subscription γ)
    (callback : γ) : (s.join callback).endpoint = s.endpoint := by
  unfold join
  split <;> rfl

/-- **The subscriptions of a node**, by topic. -/
structure Subscriptions (γ : Type) where
  byTopic : KeyMap String (Subscription γ)

/-- What became of an offered record. -/
inductive Insertion
  /-- It is the topic's record now. -/
  | inserted
  /-- Its callbacks joined the record that was there; its endpoint comes back. -/
  | merged (unused : Endpoint)
deriving DecidableEq, Repr

namespace Subscriptions

variable {γ : Type}

/-- No subscriptions. -/
def empty : Subscriptions γ := ⟨.empty⟩

instance : Inhabited (Subscriptions γ) := ⟨empty⟩

/-- The record of a topic. -/
def get? (s : Subscriptions γ) (topic : String) : Option (Subscription γ) :=
  s.byTopic.get? topic

/-- Lets a callback join the record of a topic.  The answer is `none` if there is
no record, and otherwise whether the callback is new to it. -/
def join [DecidableEq γ] (s : Subscriptions γ) (topic : String) (callback : γ) :
    Subscriptions γ × Option Bool :=
  match s.get? topic with
  | none => (s, none)
  | some record =>
    (⟨s.byTopic.insert topic (record.join callback)⟩, some (callback ∉ record.callbacks))

/-- Offers a record for a topic. -/
def insert [DecidableEq γ] (s : Subscriptions γ) (topic : String) (offered : Subscription γ) :
    Subscriptions γ × Insertion :=
  match s.get? topic with
  | none => (⟨s.byTopic.insert topic offered⟩, .inserted)
  | some record =>
    (⟨s.byTopic.insert topic (offered.callbacks.foldl Subscription.join record)⟩,
      .merged offered.endpoint)

/-- The callbacks of a topic, in the order in which they joined. -/
def callbacks (s : Subscriptions γ) (topic : String) : List γ :=
  match s.get? topic with
  | none => []
  | some record => record.callbacks

/-- Takes the record of a topic out. -/
def remove (s : Subscriptions γ) (topic : String) : Subscriptions γ × Option (Subscription γ) :=
  (⟨s.byTopic.erase topic⟩, s.get? topic)

/-- Takes all records out, by topic. -/
def drain (s : Subscriptions γ) : Subscriptions γ × List (String × Subscription γ) :=
  (empty, s.byTopic.entries)

/-- The protocol by which the traffic of a topic arrives. -/
def protocol? (s : Subscriptions γ) (topic : String) : Option Protocol :=
  (s.get? topic).map fun record => record.endpoint.protocol

/-- The topics whose traffic comes through the broker, ascending, each with the
delivery guarantee asked for. -/
def brokerTopics (s : Subscriptions γ) : List (String × QoS) :=
  (s.byTopic.entries.filter fun e => e.2.endpoint == .broker).map fun e => (e.1, e.2.qos)

/-- The subscribed topics, ascending. -/
def topics (s : Subscriptions γ) : List String :=
  s.byTopic.keys

end Subscriptions

end TopicMesh
