import Mathlib.Data.List.Basic
import TopicMesh.Retained
import TopicMesh.Proofs.KeyMap.Reading
import TopicMesh.Proofs.Message.RoundTrip
import TopicMesh.Proofs.Text.Utf8

/-!
# Retained messages as bytes

A store that outlives its process keeps bytes: the text of each message under the bytes
of its topic, in the order of the bytes (`ByteStore`).  It is read record by record, and
a record that cannot be read is skipped.

A byte store that **holds** the retained messages (`Holds`) goes on to hold them when
both are given the same message (`Holds.store`), no record of it is ever skipped, and
both list the same messages for every filter (`Holds.matching`).
-/

namespace TopicMesh

namespace KeyMap

variable {κ κ' ν ν' : Type} [Ord κ] [Ord κ']

/-- Keys that are renamed in their order stay in their places. -/
theorem map_place {rename : κ → κ'} (same : ∀ a b, compare (rename a) (rename b) = compare a b)
    (rewrite : ν → ν') (k : κ) (v : ν) (l : List (κ × ν)) :
    (place k v l).map (Prod.map rename rewrite) =
      place (rename k) (rewrite v) (l.map (Prod.map rename rewrite)) := by
  induction l with
  | nil => rfl
  | cons e rest ih =>
    rw [place, List.map_cons, place, Prod.map_fst, same]
    cases compare k e.1 with
    | lt => rfl
    | eq => rfl
    | gt => exact congrArg (_ :: ·) ih

end KeyMap

namespace Utf8

theorem compare_lt_of_lt {x y : Bytes} (h : x < y) : compare x y = .lt := by
  induction h with
  | nil => rfl
  | @cons a _ _ _ ih =>
    have head : compare a a = .eq := Std.ReflCmp.compare_self
    rw [List.compare_cons_cons, head]
    exact ih
  | rel lt => rw [List.compare_cons_cons, Std.compare_eq_lt.2 lt]; rfl

/-- Bytes of texts are in the order of the texts. -/
theorem compare_encode (s t : String) : compare (encode s) (encode t) = compare s t := by
  cases order : compare s t with
  | lt => exact compare_lt_of_lt (encode_lt (compareOfLessAndEq_eq_lt.1 order))
  | eq =>
    obtain rfl := Std.compare_eq_iff_eq.1 order
    exact Std.ReflCmp.compare_self
  | gt =>
    have later : compare t s = .lt := Std.OrientedCmp.lt_of_gt order
    exact Std.OrientedCmp.gt_of_lt
      (compare_lt_of_lt (encode_lt (compareOfLessAndEq_eq_lt.1 later)))

end Utf8

/-- **The retained messages as an ordered map of bytes.** -/
structure ByteStore where
  /-- Under the bytes of each topic the bytes of a text. -/
  records : KeyMap Bytes Bytes

namespace ByteStore

/-- No records. -/
def empty : ByteStore := ⟨.empty⟩

/-- The bytes of a message's text. -/
def written (m : Message) : Bytes :=
  Utf8.encode m.toText

/-- Writes a message that arrives at a time, or clears its topic. -/
def store (now : Int64) (m : Message) (s : ByteStore) : ByteStore :=
  if m.payload.isEmpty then ⟨s.records.erase (Utf8.encode m.topic)⟩
  else ⟨s.records.insert (Utf8.encode m.topic) (written (Retained.kept now m))⟩

/-- The text that bytes are, if they are one. -/
def text? (bytes : Bytes) : Option String :=
  (Utf8.decode bytes).toOption

/-- The message of a record, if its topic matches a filter and it can be read. -/
def read? (filter : String) (record : Bytes × Bytes) : Option Message :=
  match text? record.1 with
  | some topic =>
    if Filter.topicMatches filter topic then (text? record.2).bind Message.ofText? else none
  | none => none

/-- The messages whose topics match a filter, in the order of the records. -/
def matching (filter : String) (s : ByteStore) : List Message :=
  s.records.entries.filterMap (read? filter)

/-- **Whether a byte store holds the retained messages**, each in one record, in the
same order. -/
def Holds (s : ByteStore) (r : Retained) : Prop :=
  s.records.entries = r.byTopic.entries.map (Prod.map Utf8.encode written)

theorem text?_encode (s : String) : text? (Utf8.encode s) = some s := by
  rw [text?, Utf8.decode_encode]
  rfl

theorem read?_written (filter topic : String) (m : Message) :
    read? filter (Utf8.encode topic, written m) =
      if Filter.topicMatches filter topic then some m else none := by
  rw [read?, text?_encode]
  dsimp only
  rw [written, text?_encode, Option.bind_some, Message.ofText?_toText]

theorem holds_empty : empty.Holds .empty := rfl

variable {s : ByteStore} {r : Retained}

theorem Holds.store (holds : s.Holds r) (now : Int64) (m : Message) :
    (s.store now m).Holds (r.store now m) := by
  unfold ByteStore.store Retained.store
  split
  · show s.records.entries.filter _ = (r.byTopic.entries.filter _).map _
    rw [show s.records.entries = _ from holds, List.filter_map]
    refine congrArg (List.map _) (List.filter_congr fun e _ => ?_)
    show (compare (Utf8.encode m.topic) (Utf8.encode e.1) != .eq) = _
    rw [Utf8.compare_encode]
  · show KeyMap.place _ _ s.records.entries = (KeyMap.place _ _ r.byTopic.entries).map _
    rw [show s.records.entries = _ from holds, KeyMap.map_place Utf8.compare_encode]

/-- **Both list the same messages**: no record is skipped, and each is read back whole. -/
theorem Holds.matching (holds : s.Holds r) (filter : String) :
    s.matching filter = r.matching filter := by
  unfold ByteStore.matching Retained.matching KeyMap.values
  rw [show s.records.entries = _ from holds, List.filterMap_map]
  show _ = (r.byTopic.entries.filter _).map _
  rw [← List.filterMap_eq_map, List.filterMap_filter]
  refine List.filterMap_congr fun e _ => ?_
  exact read?_written filter e.1 e.2

end ByteStore

end TopicMesh
