import TopicMesh.ControlFrame.Json
import TopicMesh.Proofs.Message.RoundTrip
import TopicMesh.Proofs.Signal.RoundTrip

/-!
# Control frames read back

Every frame of a client and of the broker is read back from its text, whatever its strings,
bytes and numbers are and whichever of its fields are absent.
-/

namespace TopicMesh

open Json

namespace ClientFrame

theorem standsBeside_toMembers {f : ClientFrame} {field : String × Json}
    (there : field ∈ f.toMembers) : StandsBeside field := by
  cases f with
  | connect client will =>
    simp only [toMembers, mem_members, List.mem_cons, Option.some.injEq, List.not_mem_nil,
      or_false] at there
    rcases there with rfl | left
    · exact ⟨travels_text client, by simp⟩
    · obtain ⟨w, -, rfl⟩ := Option.map_eq_some_iff.1 left.symm
      exact ⟨w.travels_toJson, by simp⟩
  | subscribe filter qos =>
    simp only [toMembers, List.mem_cons, List.not_mem_nil, or_false] at there
    rcases there with rfl | rfl
    · exact ⟨travels_text filter, by simp⟩
    · exact ⟨qos.travels_toJson, by simp⟩
  | unsubscribe filter =>
    rw [List.mem_singleton.1 there]
    exact ⟨travels_text filter, by simp⟩
  | publish m => exact Message.standsBeside_toMembers there
  | disconnect => cases there

/-- **A client's frame is read back from its text.** -/
theorem ofText?_toText (f : ClientFrame) : ofText? f.toText = some f := by
  rw [ofText?, toText, toJson, taggedText?_render fun _ => standsBeside_toMembers]
  show ofKind? f.kind (.record f.toMembers) = some f
  cases f with
  | connect client will =>
    have slots : slots? ["client_id", "will"] (.record (toMembers (connect client will))) =
        some [some (.text client), will.map Will.toJson] := by
      cases will <;> rfl
    have left : optional (Will.ofJson? true) (will.map Will.toJson) = some will := by
      cases will with
      | none => rfl
      | some w => exact congrArg (Option.map some) (w.ofJson?_toJson true)
    show (slots? ["client_id", "will"] _).bind connectOfSlots? = _
    rw [slots, Option.bind_some, connectOfSlots?, left]
    rfl
  | subscribe filter qos =>
    show subscribeOfSlots? [some (.text filter), some qos.toJson] = _
    rw [subscribeOfSlots?, defaulted_some, QoS.ofJson?_toJson]
    rfl
  | unsubscribe filter => rfl
  | publish m => exact congrArg (Option.map publish) (m.ofJson?_toJson true)
  | disconnect => rfl

end ClientFrame

namespace ServerFrame

theorem standsBeside_toMembers {f : ServerFrame} {field : String × Json}
    (there : field ∈ f.toMembers) : StandsBeside field := by
  cases f with
  | accepted client =>
    rw [List.mem_singleton.1 there]
    exact ⟨travels_text client, by simp⟩
  | deliver m => exact Message.standsBeside_toMembers there
  | refused reason =>
    rw [List.mem_singleton.1 there]
    exact ⟨travels_text reason, by simp⟩

/-- **A frame of the broker is read back from its text.** -/
theorem ofText?_toText (f : ServerFrame) : ofText? f.toText = some f := by
  rw [ofText?, toText, toJson, taggedText?_render fun _ => standsBeside_toMembers]
  show ofKind? f.kind (.record f.toMembers) = some f
  cases f with
  | accepted client => rfl
  | deliver m => exact congrArg (Option.map deliver) (m.ofJson?_toJson true)
  | refused reason => rfl

end ServerFrame

/-- **Whatever is sent as text is read back**: signals, the frames of clients and of the
broker, and messages by themselves. -/
theorem texts_read_back :
    (∀ s : Signal, Signal.ofText? s.toText = some s) ∧
      (∀ f : ClientFrame, ClientFrame.ofText? f.toText = some f) ∧
      (∀ f : ServerFrame, ServerFrame.ofText? f.toText = some f) ∧
      ∀ m : Message, Message.ofText? m.toText = some m :=
  ⟨Signal.ofText?_toText, ClientFrame.ofText?_toText, ServerFrame.ofText?_toText,
    Message.ofText?_toText⟩

end TopicMesh
