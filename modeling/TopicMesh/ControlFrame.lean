import TopicMesh.Message

/-!
# Frames of the control broker

A client and the broker exchange **frames**: the client greets, subscribes,
publishes and takes its leave; the broker confirms the greeting, delivers
messages and reports what it refused.
-/

namespace TopicMesh

/-- What a client sends to the broker. -/
inductive ClientFrame
  /-- The greeting: the client's name, and its will. -/
  | connect (client : String) (will : Option Will)
  | subscribe (filter : String) (qos : QoS)
  | unsubscribe (filter : String)
  | publish (m : Message)
  /-- The farewell; no will is published after it. -/
  | disconnect
deriving DecidableEq, Repr, Inhabited

/-- What the broker sends to a client. -/
inductive ServerFrame
  /-- The greeting is accepted. -/
  | accepted (client : String)
  | deliver (m : Message)
  /-- Something was refused. -/
  | refused (reason : String)
deriving DecidableEq, Repr, Inhabited

end TopicMesh
