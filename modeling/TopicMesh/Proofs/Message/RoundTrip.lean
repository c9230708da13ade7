import TopicMesh.Message.Json
import TopicMesh.Proofs.Json.Record

/-!
# Messages read back

Reply data, wills and messages are read back from their records, whether or not the record
is kept whole first, and a message is read back from its text (`Message.ofText?_toText`).
-/

namespace TopicMesh

open Json

theorem QoS.ofJson?_toJson (kept : Bool) (q : QoS) : QoS.ofJson? kept q.toJson = some q :=
  QoS.ofName?_name q

theorem QoS.travels_toJson {deep : Nat} (q : QoS) : Travels deep q.toJson :=
  travels_text q.name

namespace ReplyInfo

theorem travels_toJson {deep : Nat} (r : ReplyInfo) : Travels (deep + 1) r.toJson := by
  refine travels_record fun m there => ?_
  have small : (r.sequence.toNat : Int).natAbs < UInt64.size :=
    Nat.lt_trans r.sequence.toNat_lt (by decide)
  simp only [mem_members, List.mem_cons, Option.some.injEq, List.not_mem_nil, or_false] at there
  rcases there with rfl | marked | rfl | rfl
  · exact travels_text r.replyTopic
  · obtain ⟨c, -, rfl⟩ := Option.map_eq_some_iff.1 marked.symm
    exact travels_text c
  · exact travels_integer small
  · exact travels_bool r.isLast

theorem ofJson?_toJson (r : ReplyInfo) : ofJson? r.toJson = some r := by
  obtain ⟨replyTopic, correlation, sequence, isLast⟩ := r
  have slots : slots? fieldNames (toJson ⟨replyTopic, correlation, sequence, isLast⟩) =
      some [some (.text replyTopic), correlation.map .text, some (.integer sequence.toNat),
        some (.bool isLast)] := by
    cases correlation <;> rfl
  have mark : optional text? (correlation.map .text) = some correlation := by
    cases correlation <;> rfl
  rw [ofJson?, slots, Option.bind_some, ofSlots?, mark, defaulted_some, uint32?_integer]
  rfl

end ReplyInfo

namespace Will

theorem travels_toJson {deep : Nat} (w : Will) : Travels (deep + 2) w.toJson := by
  refine travels_record fun m there => ?_
  simp only [List.mem_cons, List.not_mem_nil, or_false] at there
  rcases there with rfl | rfl | rfl | rfl
  · exact travels_text w.topic
  · exact travels_ofBytes w.payload
  · exact w.qos.travels_toJson
  · exact travels_bool w.retain

theorem ofJson?_toJson (kept : Bool) (w : Will) : ofJson? kept w.toJson = some w := by
  have slots : slots? fieldNames w.toJson =
      some [some (.text w.topic), some (ofBytes w.payload), some w.qos.toJson,
        some (.bool w.retain)] := rfl
  have payload : required bytes? (some (ofBytes w.payload)) = some w.payload :=
    bytes?_ofBytes w.payload
  rw [ofJson?, slots, Option.bind_some, ofSlots?, payload, defaulted_some, QoS.ofJson?_toJson]
  rfl

end Will

namespace Message

theorem standsBeside_toMembers {m : Message} {field : String × Json} (there : field ∈ m.toMembers) :
    StandsBeside field := by
  have small : m.timestamp.toInt.natAbs < UInt64.size := by
    have := m.timestamp.le_toInt
    have := m.timestamp.toInt_lt
    show _ < 18446744073709551616
    omega
  simp only [toMembers, mem_members, List.mem_cons, Option.some.injEq, List.not_mem_nil,
    or_false] at there
  rcases there with rfl | rfl | rfl | rfl | asked | rfl
  · exact ⟨travels_text m.topic, by simp⟩
  · exact ⟨travels_ofBytes m.payload, by simp⟩
  · exact ⟨m.qos.travels_toJson, by simp⟩
  · exact ⟨travels_bool m.retain, by simp⟩
  · obtain ⟨r, -, rfl⟩ := Option.map_eq_some_iff.1 asked.symm
    exact ⟨r.travels_toJson, by simp⟩
  · exact ⟨travels_integer small, by simp⟩

theorem ofJson?_toJson (kept : Bool) (m : Message) : ofJson? kept m.toJson = some m := by
  obtain ⟨topic, payload, qos, retain, reply, timestamp⟩ := m
  have slots : slots? fieldNames (toJson ⟨topic, payload, qos, retain, reply, timestamp⟩) =
      some [some (.text topic), some (ofBytes payload), some qos.toJson, some (.bool retain),
        reply.map ReplyInfo.toJson, some (.integer timestamp.toInt)] := by
    cases reply <;> rfl
  have bytes : required bytes? (some (ofBytes payload)) = some payload := bytes?_ofBytes payload
  have asked : optional ReplyInfo.ofJson? (reply.map ReplyInfo.toJson) = some reply := by
    cases reply with
    | none => rfl
    | some r => exact congrArg (Option.map some) r.ofJson?_toJson
  rw [ofJson?, slots, Option.bind_some, ofSlots?, bytes, asked]
  simp only [defaulted_some, QoS.ofJson?_toJson, int64?_integer]
  rfl

/-- **A message is read back from its text.** -/
theorem ofText?_toText (m : Message) : ofText? m.toText = some m := by
  have travels : Travels 127 m.toJson :=
    travels_record fun _ there => (standsBeside_toMembers there).travels
  rw [ofText?, toText, travels.parse?_render, Option.bind_some, ofJson?_toJson]

end Message

end TopicMesh
