import TopicMesh.Filter
import TopicMesh.KeyMap
import TopicMesh.Message

/-!
# Retained messages

For every topic the store keeps the **last** message that was meant to be kept.
An empty payload clears the topic.  What is kept is marked as retained and has a
time.
-/

namespace TopicMesh

/-- **The retained messages**, by topic. -/
structure Retained where
  byTopic : KeyMap String Message

namespace Retained

instance : DecidableEq Retained := fun r r' =>
  if h : r.byTopic = r'.byTopic then
    .isTrue (by cases r; cases r'; cases h; rfl)
  else
    .isFalse fun e => h (e ▸ rfl)

/-- The store without messages. -/
def empty : Retained := ⟨.empty⟩

instance : Inhabited Retained := ⟨empty⟩

/-- A message in the form in which it is kept. -/
def kept (now : Int64) (m : Message) : Message :=
  { m.stamp now with retain := true }

/-- Keeps a message that arrives at a time, or clears its topic. -/
def store (now : Int64) (m : Message) (r : Retained) : Retained :=
  if m.payload.isEmpty then ⟨r.byTopic.erase m.topic⟩
  else ⟨r.byTopic.insert m.topic (kept now m)⟩

/-- The kept messages whose topics match a filter, by topic. -/
def matching (filter : String) (r : Retained) : List Message :=
  (r.byTopic.filter fun topic _ => Filter.topicMatches filter topic).values

/-- The number of kept messages. -/
def size (r : Retained) : Nat :=
  r.byTopic.size

/-- Whether nothing is kept. -/
def isEmpty (r : Retained) : Bool :=
  r.byTopic.isEmpty

end Retained

end TopicMesh
