import TopicMesh.Proofs.Json.Record
import TopicMesh.Signal.Json

/-!
# Signals across the stream

Every signal is read back from its text (`ofText?_toText`), whatever its descriptions
and candidates say.  Hence two signals with one text are one signal.
-/

namespace TopicMesh

open Json

theorem Signal.standsBeside_toMembers {s : Signal} {field : String × Json}
    (there : field ∈ s.toMembers) : StandsBeside field := by
  cases s with
  | offer description =>
    rw [List.mem_singleton.1 there]
    exact ⟨travels_text description, by simp⟩
  | answer description =>
    rw [List.mem_singleton.1 there]
    exact ⟨travels_text description, by simp⟩
  | candidate c =>
    have small : (c.label.toNat : Int).natAbs < UInt64.size :=
      Nat.lt_trans c.label.toNat_lt (by decide)
    simp only [toMembers, Candidate.toMembers, List.mem_cons, List.not_mem_nil, or_false] at there
    rcases there with rfl | rfl | rfl
    · exact ⟨travels_integer small, by simp⟩
    · exact ⟨travels_text c.id, by simp⟩
    · exact ⟨travels_text c.line, by simp⟩
  | bye => cases there

theorem Candidate.ofSlots?_toMembers (c : Candidate) :
    (slots? Candidate.fieldNames (.record c.toMembers)).bind Candidate.ofSlots? = some c := by
  have slots : ∀ label id line : Json,
      slots? Candidate.fieldNames (.record [("label", label), ("id", id), ("candidate", line)]) =
        some [some label, some id, some line] := fun _ _ _ => rfl
  have label : required uint32? (some (.integer c.label.toNat)) = some c.label := by
    rw [required, Option.bind_some, uint32?_integer]
  have texts : ∀ s : String, required text? (some (.text s)) = some s := fun _ => rfl
  rw [toMembers, slots, Option.bind_some, ofSlots?, label, texts, texts]
  rfl

/-- **A signal is read back from its text.** -/
theorem Signal.ofText?_toText (s : Signal) : Signal.ofText? s.toText = some s := by
  rw [ofText?, toText, toJson, taggedText?_render fun _ => standsBeside_toMembers]
  show ofKind? s.kind (.record s.toMembers) = some s
  cases s with
  | offer description => rfl
  | answer description => rfl
  | bye => rfl
  | candidate c =>
    show (((slots? Candidate.fieldNames (.record c.toMembers)).bind Candidate.ofSlots?).map
      candidate) = _
    rw [Candidate.ofSlots?_toMembers]
    rfl

end TopicMesh
