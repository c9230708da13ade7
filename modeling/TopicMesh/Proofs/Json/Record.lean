import TopicMesh.Json.Record
import TopicMesh.Proofs.Json.RoundTrip

/-!
# Records read back

What the records that travel as text have in common.  All of their numbers fit in 64 bits,
all of their strings denote texts, and they are nested a few levels deep (`Travels`).  Hence
the text of such a record reads back, and it can be kept whole until its kind is known
(`taggedText?_render`).
-/

namespace TopicMesh.Json

/-- **Whether a value travels**: its text reads back, and the value can be kept whole; it is
nested at most so deep. -/
structure Travels (deep : Nat) (j : Json) : Prop where
  plain : j.isPlain = true
  sound : j.isSound = true
  shallow : j.depth ≤ deep

variable {deep : Nat} {j : Json}

theorem travels_text (s : String) : Travels deep (.text s) :=
  ⟨rfl, rfl, Nat.zero_le deep⟩

theorem travels_bool (b : Bool) : Travels deep (.bool b) :=
  ⟨rfl, rfl, Nat.zero_le deep⟩

theorem travels_integer {n : Int} (small : n.natAbs < UInt64.size) : Travels deep (.integer n) :=
  ⟨rfl, by simp [isSound, small], Nat.zero_le deep⟩

theorem travels_array {items : List Json} (each : ∀ item ∈ items, Travels deep item) :
    Travels (deep + 1) (.array items) := by
  have all : itemsPlain items = true ∧ itemsSound items = true ∧ depthOfItems items ≤ deep := by
    induction items with
    | nil => exact ⟨rfl, rfl, Nat.zero_le deep⟩
    | cons item items ih =>
      obtain ⟨first, others⟩ := List.forall_mem_cons.1 each
      obtain ⟨plain, sound, shallow⟩ := ih others
      exact ⟨by simp [itemsPlain, first.plain, plain], by simp [itemsSound, first.sound, sound],
        Nat.max_le.2 ⟨first.shallow, shallow⟩⟩
  exact ⟨all.1, all.2.1, Nat.succ_le_succ all.2.2⟩

/-- A member under its name. -/
def named (m : String × Json) : Option String × Json :=
  (some m.1, m.2)

theorem record_eq (members : List (String × Json)) :
    record members = .object (members.map named) := rfl

theorem travels_record {members : List (String × Json)} (each : ∀ m ∈ members, Travels deep m.2) :
    Travels (deep + 1) (record members) := by
  let fields := members.map named
  have all : membersPlain fields = true ∧ membersSound fields = true ∧
      depthOfMembers fields ≤ deep := by
    induction members with
    | nil => exact ⟨rfl, rfl, Nat.zero_le deep⟩
    | cons m members ih =>
      obtain ⟨first, others⟩ := List.forall_mem_cons.1 each
      obtain ⟨plain, sound, shallow⟩ := ih others
      exact ⟨by simpa [fields, membersPlain, named, first.plain] using plain,
        by simpa [fields, membersSound, named, first.sound] using sound,
        Nat.max_le.2 ⟨first.shallow, shallow⟩⟩
  exact ⟨all.1, all.2.1, Nat.succ_le_succ all.2.2⟩

theorem travels_ofBytes (bytes : Bytes) : Travels (deep + 1) (ofBytes bytes) := by
  refine travels_array fun item there => ?_
  obtain ⟨b, -, rfl⟩ := List.mem_map.1 there
  exact travels_integer (Nat.lt_trans b.toNat_lt (by decide))

/-! ## A record with its kind -/

theorem Travels.parse?_render (travels : Travels deep j) : parse? j.render = some j :=
  Json.parse?_render travels.plain

/-- A record that carries its kind is told apart from it, if no other field has that name. -/
theorem tagged?_record {kind : String} {members : List (String × Json)}
    (free : ∀ m ∈ members, m.1 ≠ "type") :
    (record (("type", .text kind) :: members)).tagged? = some (kind, record members) := by
  have kept : (members.map named).filter (fun m => m.1 != some "type") = members.map named :=
    List.filter_eq_self.2 fun m there => by
      obtain ⟨field, inside, rfl⟩ := List.mem_map.1 there
      simpa [named] using free field inside
  have none_else : (members.map named).filter (fun m => m.1 == some "type") = [] :=
    List.filter_eq_nil_iff.2 fun m there => by
      obtain ⟨field, inside, rfl⟩ := List.mem_map.1 there
      simpa [named] using free field inside
  simp [record_eq, tagged?, valuesOf, kept, none_else, named]

/-- Whether a field may stand beside the kind in the text of a record. -/
structure StandsBeside (field : String × Json) : Prop where
  travels : Travels 126 field.2
  /-- Its name is not the one that the kind has. -/
  free : field.1 ≠ "type"

/-- **The text of a record with its kind reads back** to the kind and the other fields. -/
theorem taggedText?_render {kind : String} {members : List (String × Json)}
    (beside : ∀ m ∈ members, StandsBeside m) :
    taggedText? (record (("type", .text kind) :: members)).render = some (kind, record members) := by
  have whole : Travels maxDepth (record (("type", .text kind) :: members)) :=
    travels_record (List.forall_mem_cons.2 ⟨travels_text kind, fun m there => (beside m there).travels⟩)
  have keepable : (record (("type", .text kind) :: members)).isKeepable = true := by
    rw [isKeepable, whole.sound, Bool.true_and]
    exact decide_eq_true whole.shallow
  have tagged : (record (("type", .text kind) :: members)).tagged? = some (kind, record members) :=
    tagged?_record fun m there => (beside m there).free
  unfold taggedText?
  rw [whole.parse?_render]
  simp only [Option.bind_eq_bind, Option.bind_some, keepable, if_true, tagged]

/-! ## Fields -/

theorem mem_members {fields : List (Option (String × Json))} {m : String × Json} :
    m ∈ members fields ↔ some m ∈ fields := by
  simp [members]

theorem defaulted_some {α : Type} (absent : α) (read : Json → Option α) (value : Json) :
    defaulted absent read (some value) = read value := rfl

theorem uint32?_integer (n : UInt32) : uint32? (.integer n.toNat) = some n := by
  have small : n.toNat < 4294967296 := n.toNat_lt
  have within : (0 : Int) ≤ n.toNat ∧ (n.toNat : Int) < 4294967296 := by omega
  rw [uint32?, intWithin?, if_pos within]
  simp

theorem int64?_integer (n : Int64) : int64? (.integer n.toInt) = some n := by
  have within : -9223372036854775808 ≤ n.toInt ∧ n.toInt < 9223372036854775808 :=
    ⟨n.le_toInt, n.toInt_lt⟩
  rw [int64?, intWithin?, if_pos within, Option.map_some, Int64.ofInt_toInt]

theorem byte?_integer (b : UInt8) : byte? (.integer b.toNat) = some b := by
  have small : b.toNat < 256 := b.toNat_lt
  have within : (0 : Int) ≤ b.toNat ∧ (b.toNat : Int) < 256 := by omega
  rw [byte?, intWithin?, if_pos within]
  simp

theorem bytes?_ofBytes (bytes : Bytes) : bytes? (ofBytes bytes) = some bytes := by
  show (bytes.map fun b => Json.integer b.toNat).mapM byte? = some bytes
  induction bytes with
  | nil => rfl
  | cons b bytes ih =>
    rw [List.map_cons, List.mapM_cons, byte?_integer, ih]
    rfl

end TopicMesh.Json
