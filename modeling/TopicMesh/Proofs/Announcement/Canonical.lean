import TopicMesh.Proofs.Announcement.RoundTrip
import TopicMesh.Proofs.Pack.Length

/-!
# Whatever is read can be written

Other nodes write announcements as they like: with keys as texts or byte strings, numbers
in any width, an array for a capability, a topic twice, no status.  What is read from them
does not show it.  **An announcement that is read is canonical** (`Canonical`): it has a
host, no topic with a reserved name, and no topics if it says farewell.

Moreover it is no larger than the bytes it was read from (`fits_of_decode`): its texts
were among them, and each of its topics took two of them or more.  So it can be
written, and **reads back to itself** (`writes_what_it_read`).
-/

namespace TopicMesh.Announcement

open Pack

/-- Whether an announcement is one that can be read. -/
structure Canonical (a : Announcement) : Prop where
  host : a.host ≠ ""
  plain : ∀ topic ∈ a.topics.keys, topic ≠ "status" ∧ topic ≠ "host"
  departed : a.status = .disconnected → a.topics = .empty

theorem Canonical.heardAs_eq_self {a : Announcement} (canonical : a.Canonical) : a.heardAs = a := by
  obtain ⟨status, host, topics⟩ := a
  cases status with
  | connected => rfl
  | disconnected => exact congrArg (Announcement.mk _ host) (canonical.departed rfl).symm

theorem ofRaw_eq_ok {raw : Raw} {a : Announcement} (read : ofRaw raw = .ok a) :
    raw.host ≠ "" ∧ (a = departure raw.host ∨ a = ⟨.connected, raw.host, served raw.topics⟩) := by
  unfold ofRaw at read
  split at read
  · cases read
  · next host =>
    split at read
    · cases read
    · cases read
      exact ⟨host, .inl rfl⟩
    · cases read
      exact ⟨host, .inr rfl⟩

section

variable {bytes : Bytes} {a : Announcement}

/-- **Where an announcement comes from.**  The bytes begin with a map whose keys are texts,
the host is in it, and so is every topic, under a name that is not reserved. -/
theorem decode_eq_ok (read : decode bytes = .ok a) :
    ∃ (texts : List (String × Pack)) (rest : Bytes),
      value? maxDepth bytes = some (.map (texts.map packEntry), rest) ∧
      a.Canonical ∧ ("host", packText a.host) ∈ texts ∧ a.topics.size ≤ texts.length ∧
      ∀ name ∈ a.topics.keys, ∃ value, (name, value) ∈ texts := by
  unfold decode at read
  split at read
  · cases read
  · next raw found =>
    obtain ⟨v, at_head, parts⟩ := Option.bind_eq_some_iff.1 found
    obtain ⟨⟨v', rest⟩, taken, same⟩ := Option.map_eq_some_iff.1 at_head
    cases same
    obtain ⟨texts, rfl, hosts, -, topics⟩ := ofPack?_eq_some parts
    have host : ("host", packText raw.host) ∈ texts :=
      mem_valuesOf.1 (hosts ▸ List.mem_singleton_self _)
    obtain ⟨named, rfl | rfl⟩ := ofRaw_eq_ok read
    · have nothing : ∀ name, name ∉ (departure raw.host).topics.keys := fun name there => by
        cases there
      have canonical : (departure raw.host).Canonical :=
        ⟨named, fun name there => absurd there (nothing name), fun _ => rfl⟩
      exact ⟨texts, rest, taken, canonical, host, Nat.zero_le _,
        fun name there => absurd there (nothing name)⟩
    · have from_map : ∀ name ∈ (served raw.topics).keys, isReservedKey name = false ∧
          ∃ value, (name, value) ∈ texts := by
        intro name there
        obtain ⟨t, listed, rfl⟩ := mem_of_mem_keys_served there
        obtain ⟨plain, value, in_map, -⟩ := mem_of_topics? topics listed
        exact ⟨plain, value, in_map⟩
      have plain : ∀ name ∈ (served raw.topics).keys, name ≠ "status" ∧ name ≠ "host" :=
        fun name there => by simpa [isReservedKey] using (from_map name there).1
      exact ⟨texts, rest, taken, ⟨named, plain, fun gone => by cases gone⟩, host,
        Nat.le_trans (size_served_le _) (length_of_topics? topics),
        fun name there => (from_map name there).2⟩

/-- **An announcement is no larger than the bytes it is read from**, so its lengths fit. -/
theorem fits_of_decode (short : bytes.length < 0x100000000) (read : decode bytes = .ok a) :
    a.Fits := by
  obtain ⟨texts, rest, taken, -, host, count, names⟩ := decode_eq_ok read
  have room := takes_value? maxDepth taken
  have entries := two_mul_length_le (texts.map packEntry)
  rw [least] at room
  rw [List.length_map] at entries
  have text_fits : ∀ {name : String} {value : Pack}, (name, value) ∈ texts → TextFits name := by
    intro name value there
    have part := least_le_of_mem (List.mem_map_of_mem (f := packEntry) there)
    simp only [packEntry, packText, least] at part
    unfold TextFits
    omega
  have host_fits : TextFits a.host := by
    have part := least_le_of_mem (List.mem_map_of_mem (f := packEntry) host)
    simp only [packEntry, packText, least] at part
    unfold TextFits
    omega
  have carried_le : a.carried.size ≤ a.topics.size := by
    unfold carried
    cases a.status with
    | connected => exact Nat.le_refl _
    | disconnected => exact Nat.zero_le _
  refine ⟨host_fits, by omega, fun e there => ?_⟩
  obtain ⟨value, in_map⟩ := names e.1 (mem_keys_of_mem_entries (mem_carried there))
  exact text_fits in_map

/-- **What is read is canonical, can be written, and reads back to itself**, whoever wrote
the bytes and in whichever forms. -/
theorem writes_what_it_read (short : bytes.length < 0x100000000) (read : decode bytes = .ok a) :
    a.Canonical ∧ ∃ written, a.encode = .ok written ∧ decode written = .ok a := by
  obtain ⟨_, _, -, canonical, -⟩ := decode_eq_ok read
  have keys : ∀ topic ∈ a.topics.keys, isReservedKey topic = false := fun topic there => by
    simp [isReservedKey, canonical.plain topic there]
  have written := encode_ok canonical.host keys
  refine ⟨canonical, _, written, ?_⟩
  rw [decode_encode (fits_of_decode short read) written, ← heardAs_eq, canonical.heardAs_eq_self]

end

/-- An announcement without a status, with its host in byte strings, one topic as an array
and once more, with numbers for keys. -/
def looselyWritten : Bytes :=
  [0x83, 0xC4, 4, 0x68, 0x6F, 0x73, 0x74, 0xC4, 1, 0x68,
    0xD9, 1, 0x74, 0x92, 0xCD, 0, 2, 0xCE, 0, 0, 0, 80,
    0xA1, 0x74, 0x82, 0x00, 0xD1, 0, 4, 0xCC, 0x01, 81]

theorem writes_what_it_read_looselyWritten :
    decode looselyWritten = .ok ⟨.connected, "h", .ofList [("t", ⟨.datagram, 81⟩)]⟩ ∧
      ∃ written, encode ⟨.connected, "h", .ofList [("t", ⟨.datagram, 81⟩)]⟩ = .ok written ∧
        decode written = .ok ⟨.connected, "h", .ofList [("t", ⟨.datagram, 81⟩)]⟩ := by
  have read : decode looselyWritten = .ok ⟨.connected, "h", .ofList [("t", ⟨.datagram, 81⟩)]⟩ := by
    decide +kernel
  exact ⟨read, (writes_what_it_read (by decide) read).2⟩

end TopicMesh.Announcement
