import TopicMesh.Broker.Basic

/-!
# The hub

A **hub** is a broker together with the queues of its inboxes.  Inboxes are
numbered as they are opened.  Posts join the queue of their inbox in order; posts
to an inbox that has been closed are lost.

A client that leaves keeps its queue until somebody has taken the frames that are
still in it.
-/

namespace TopicMesh

/-- The frames that wait for a client. -/
structure Mailbox where
  client : String
  frames : List ServerFrame
deriving DecidableEq, Repr, Inhabited

/-- **The hub.** -/
structure Hub where
  broker : Broker Nat
  /-- The open inboxes. -/
  mailboxes : KeyMap Nat Mailbox
  /-- The number of the next inbox. -/
  nextInbox : Nat
  /-- The clock. -/
  now : Int64

namespace Hub

/-- A hub without clients, at a time. -/
def empty (now : Int64) : Hub := ⟨.empty, .empty, 0, now⟩

instance : Inhabited Hub := ⟨empty 0⟩

/-- Puts posts into the queues. -/
def deliver (h : Hub) (posts : List (Post Nat)) : Hub :=
  { h with
    mailboxes := posts.foldl
      (fun boxes p =>
        boxes.modify p.inbox fun box => { box with frames := box.frames ++ [p.frame] })
      h.mailboxes }

/-- The hub after a broker's operation. -/
def after (h : Hub) (result : Broker Nat × List (Post Nat)) : Hub :=
  { h with broker := result.1 }.deliver result.2

/-- Registers a client with a new inbox. -/
def register (h : Hub) (client : String) (will : Option Will) : Hub × Nat :=
  ({ h with
      broker := h.broker.register client ⟨h.nextInbox, will⟩
      mailboxes := h.mailboxes.insert h.nextInbox ⟨client, []⟩
      nextInbox := h.nextInbox + 1 },
    h.nextInbox)

/-- Strikes a client out. -/
def remove (h : Hub) (client : String) : Hub :=
  { h with broker := h.broker.remove client }

/-- Closes an inbox; the frames in it are lost. -/
def closeInbox (h : Hub) (inbox : Nat) : Hub :=
  { h with mailboxes := h.mailboxes.erase inbox }

/-- Subscribes a filter for a client. -/
def subscribe (h : Hub) (filter client : String) (qos : QoS) : Hub :=
  h.after (h.broker.subscribe filter client qos)

/-- Ends a client's subscription of a filter. -/
def unsubscribe (h : Hub) (filter client : String) : Hub :=
  { h with broker := h.broker.unsubscribe filter client }

/-- Publishes a message. -/
def publish (h : Hub) (m : Message) : Hub :=
  h.after (h.broker.publish h.now m)

/-- Ends everything that a client has at the broker. -/
def cleanup (h : Hub) (client : String) (graceful : Bool) : Hub :=
  h.after (h.broker.cleanup h.now client graceful)

/-- Takes the frames out of an inbox. -/
def take (h : Hub) (inbox : Nat) : Hub × List ServerFrame :=
  match h.mailboxes.get? inbox with
  | none => (h, [])
  | some box =>
    ({ h with mailboxes := h.mailboxes.insert inbox { box with frames := [] } }, box.frames)

/-- The number of frames that wait in some inbox. -/
def pending (h : Hub) : Nat :=
  (h.mailboxes.values.flatMap Mailbox.frames).length

/-- Takes the oldest frame out of an inbox, and says whose it is. -/
def pop? (h : Hub) (inbox : Nat) : Option (Hub × String × ServerFrame) :=
  match h.mailboxes.get? inbox with
  | some ⟨client, frame :: rest⟩ =>
    some ({ h with mailboxes := h.mailboxes.insert inbox ⟨client, rest⟩ }, client, frame)
  | _ => none

/-- Takes the oldest frame out of the first inbox that holds one. -/
def next? (h : Hub) : Option (Hub × String × ServerFrame) :=
  h.mailboxes.keys.findSome? h.pop?

end Hub

end TopicMesh
