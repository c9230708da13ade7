import TopicMesh.Proofs.Announcement.Parts
import TopicMesh.Proofs.Pack.Reading

/-!
# Announcements read back

What is read from the bytes of an announcement.  Lengths are written in at most four
bytes.  If all of an announcement's lengths fit (`Fits`), its bytes read back to what
it carries (`decode_encode`).  If only the host's does, the bytes may be unreadable;
but whatever is read from them has the announcement's status and host
(`status_host_of_decode`), because these two entries come first.
-/

namespace TopicMesh.Announcement

open Pack

/-- Whether a text's length can be written. -/
def TextFits (s : String) : Prop :=
  (Utf8.encode s).length < 0x100000000

instance (s : String) : Decidable (TextFits s) :=
  inferInstanceAs (Decidable (_ < _))

/-- Whether all lengths in an announcement can be written. -/
structure Fits (a : Announcement) : Prop where
  host : TextFits a.host
  count : a.carried.size + 2 < 0x100000000
  topics : ∀ e ∈ a.carried.entries, TextFits e.1

/-! ## Writing -/

theorem encode_eq_ok {a : Announcement} {bytes : Bytes} (h : a.encode = .ok bytes) :
    a.host ≠ "" ∧ (∀ topic ∈ a.topics.keys, isReservedKey topic = false) ∧
      bytes = a.toPack.write := by
  unfold encode at h
  split at h
  · cases h
  · next host =>
    split at h
    · cases h
    · next keys =>
      refine ⟨host, fun topic ht => ?_, (Except.ok.inj h).symm⟩
      simpa using List.find?_eq_none.1 keys topic ht

theorem encode_ok {a : Announcement} (host : a.host ≠ "")
    (keys : ∀ topic ∈ a.topics.keys, isReservedKey topic = false) :
    a.encode = .ok a.toPack.write := by
  have none_reserved : a.topics.keys.find? isReservedKey = none :=
    List.find?_eq_none.2 fun topic ht => by simp [keys topic ht]
  unfold encode
  rw [if_neg host, none_reserved]

theorem encode_departure {host : String} (h : host ≠ "") :
    (departure host).encode = .ok (departure host).toPack.write :=
  encode_ok h fun _ ht => by cases ht

/-- The bytes of an announcement are never empty. -/
theorem write_ne_nil (a : Announcement) : a.toPack.write ≠ [] := by
  show mapHead _ ++ _ ≠ []
  unfold mapHead
  split
  · simp
  · split <;> simp

/-! ## Reading entry by entry -/

/-- The entry of the status. -/
def statusEntry (a : Announcement) : Pack × Pack :=
  (packText "status", packText a.status.word)

/-- The entry of the host. -/
def hostEntry (a : Announcement) : Pack × Pack :=
  (packText "host", packText a.host)

/-- The entry of a topic as it is read back: each number has the width of its shortest
form. -/
def topicEntry (entry : String × Capability) : Pack × Pack :=
  (packText entry.1,
    .map [(packText "protocol", .unsigned entry.2.protocol.bits (natWidth entry.2.protocol.bits)),
      (packText "port", .unsigned entry.2.port.toNat (natWidth entry.2.port.toNat))])

theorem textFits_word (s : Status) : TextFits s.word := by
  cases s <;> decide

theorem value?_packText {s : String} (h : TextFits s) (depth : Nat) (rest : Bytes) :
    value? depth (write (packText s) ++ rest) = some (packText s, rest) :=
  value?_blob h depth rest

theorem pair?_statusEntry (a : Announcement) (depth : Nat) (rest : Bytes) :
    pair? (value? depth) (write a.statusEntry.1 ++ write a.statusEntry.2 ++ rest) =
      some (a.statusEntry, rest) :=
  pair?_append (value?_packText (by decide) depth) (value?_packText (textFits_word _) depth)

theorem pair?_hostEntry {a : Announcement} (fits : TextFits a.host) (depth : Nat) (rest : Bytes) :
    pair? (value? depth) (write a.hostEntry.1 ++ write a.hostEntry.2 ++ rest) =
      some (a.hostEntry, rest) :=
  pair?_append (value?_packText (by decide) depth) (value?_packText fits depth)

theorem bits_lt (p : Protocol) : p.bits < 0x10000000000000000 := by
  cases p <;> decide

theorem pair?_packTopic {entry : String × Capability} (fits : TextFits entry.1) (depth : Nat)
    (rest : Bytes) :
    pair? (value? (depth + 1))
        (write (packTopic entry).1 ++ write (packTopic entry).2 ++ rest) =
      some (topicEntry entry, rest) := by
  refine pair?_append (value?_packText fits _) fun rest => ?_
  have port : entry.2.port.toNat < 0x10000000000000000 :=
    Nat.lt_trans entry.2.port.toNat_lt (by decide)
  rw [packTopic, value?_map]
  show ((times? _ 2 _).map _ : Option (Pack × Bytes)) = _
  rw [times?, writeEntries, List.append_assoc,
    pair?_append (value?_packText (by decide) depth) (value?_unsigned (bits_lt _) depth 0)]
  dsimp only
  rw [times?, writeEntries, List.append_assoc,
    pair?_append (value?_packText (by decide) depth) (value?_unsigned port depth 0)]
  rfl

/-! ## Reading the parts -/

theorem ofKey?_protocol : Field.ofKey? (packText "protocol") = some .protocol := rfl

theorem ofKey?_port : Field.ofKey? (packText "port") = some .port := by
  have : Utf8.encode "port" ≠ Utf8.encode "protocol" := fun h => by
    have := Utf8.encode_injective h
    simp at this
  simp [Field.ofKey?, packText, this]

theorem numbers?_topicEntry (entry : String × Capability) :
    numbers? (topicEntry entry).2 = some (entry.2.protocol.bits, entry.2.port.toNat) := by
  have bits : entry.2.protocol.bits < 4294967296 := by
    cases entry.2.protocol <;> decide
  have port : entry.2.port.toNat < 4294967296 := Nat.lt_trans entry.2.port.toNat_lt (by decide)
  simp [topicEntry, numbers?, fieldValues?, ofKey?_protocol, ofKey?_port, uint32?, bits, port]

theorem capability?_bits_port (c : Capability) :
    capability? (c.protocol.bits, c.port.toNat) = some c := by
  have port : c.port.toNat < UInt16.size := c.port.toNat_lt
  simp [capability?, Protocol.ofBits?_bits, port]

/-- The entries of an announcement with their keys as texts, when others follow the status
and the host. -/
def textsWith (a : Announcement) (others : List (String × Pack)) : List (String × Pack) :=
  ("status", packText a.status.word) :: ("host", packText a.host) :: others

theorem valuesOf_host_textsWith (a : Announcement) (others : List (String × Pack)) :
    valuesOf "host" (a.textsWith others) = packText a.host :: valuesOf "host" others := by
  simp [textsWith, valuesOf]

theorem valuesOf_status_textsWith (a : Announcement) (others : List (String × Pack)) :
    valuesOf "status" (a.textsWith others) = packText a.status.word :: valuesOf "status" others := by
  simp [textsWith, valuesOf]

/-- The parts of what is read have the status and the host of the announcement. -/
theorem status_host_of_raw {a : Announcement} {rest : List (Pack × Pack)} {raw : Raw}
    (h : Raw.ofPack? (.map (a.statusEntry :: a.hostEntry :: rest)) = some raw) :
    raw.status = a.status.word ∧ raw.host = a.host := by
  obtain ⟨texts, same, hosts, status, -⟩ := ofPack?_eq_some h
  obtain ⟨first, behind, rfl, is_first, same⟩ := List.map_eq_cons_iff.1 (Pack.map.inj same).symm
  obtain ⟨second, others, rfl, is_second, -⟩ := List.map_eq_cons_iff.1 same
  have is_first : first = ("status", packText a.status.word) := packEntry_injective is_first
  have is_second : second = ("host", packText a.host) := packEntry_injective is_second
  subst is_first is_second
  -- neither of the two can be there once more
  change valuesOf "host" (a.textsWith others) = _ at hosts
  change statusWord? (a.textsWith others) = _ at status
  rw [valuesOf_host_textsWith] at hosts
  rw [statusWord?, valuesOf_status_textsWith] at status
  refine ⟨?_, (packText_injective (List.cons.inj hosts).1).symm⟩
  cases more : valuesOf "status" others with
  | nil =>
    rw [more] at status
    exact (packText_injective (text?_eq_some_iff.1 status)).symm
  | cons v vs =>
    rw [more] at status
    cases status

theorem served_eq (topics : KeyMap String Capability) :
    served (topics.entries.map fun e => (e.1, e.2.protocol.bits, e.2.port.toNat)) = topics := by
  unfold served
  rw [List.foldl_map]
  simp only [capability?_bits_port]
  exact KeyMap.foldl_insert_entries topics

theorem mem_keys_of_mem_entries {topics : KeyMap String Capability} {e : String × Capability}
    (h : e ∈ topics.entries) : e.1 ∈ topics.keys :=
  List.mem_map_of_mem h

theorem mem_carried {a : Announcement} {e : String × Capability} (h : e ∈ a.carried.entries) :
    e ∈ a.topics.entries := by
  unfold carried at h
  cases hs : a.status with
  | connected => simpa [hs] using h
  | disconnected =>
    rw [hs] at h
    cases h

/-- The parts of an announcement that is read as it was written. -/
theorem ofPack?_entries {a : Announcement}
    (keys : ∀ topic ∈ a.topics.keys, isReservedKey topic = false) :
    Raw.ofPack? (.map (a.statusEntry :: a.hostEntry :: a.carried.entries.map topicEntry)) =
      some ⟨a.host, a.status.word,
        a.carried.entries.map fun e => (e.1, e.2.protocol.bits, e.2.port.toNat)⟩ := by
  let others := a.carried.entries.map fun e => (e.1, (topicEntry e).2)
  have plain : ∀ e ∈ a.carried.entries, isReservedKey e.1 = false := fun e he =>
    keys _ (mem_keys_of_mem_entries (mem_carried he))
  have none_of : ∀ {key}, isReservedKey key = true → valuesOf key others = [] := by
    refine fun {key} reserved => valuesOf_of_not_mem fun there => ?_
    rw [List.map_map] at there
    obtain ⟨e, he, rfl⟩ := List.mem_map.1 there
    exact Bool.false_ne_true ((plain e he).symm.trans reserved)
  have hosts : valuesOf "host" (a.textsWith others) = [packText a.host] := by
    rw [valuesOf_host_textsWith, none_of rfl]
  have words : valuesOf "status" (a.textsWith others) = [packText a.status.word] := by
    rw [valuesOf_status_textsWith, none_of rfl]
  have topics : topics? (a.textsWith others) =
      some (a.carried.entries.map fun e => (e.1, e.2.protocol.bits, e.2.port.toNat)) := by
    have others_kept : others.filter (fun e => !isReservedKey e.1) = others := by
      refine List.filter_eq_self.2 fun e he => ?_
      obtain ⟨e', he', rfl⟩ := List.mem_map.1 he
      simp [plain e' he']
    unfold topics? textsWith
    rw [List.filter_cons_of_neg (by simp [isReservedKey]),
      List.filter_cons_of_neg (by simp [isReservedKey]), others_kept, mapM_eq_some_iff]
    refine List.forall₂_map_left_iff.2 (List.forall₂_map_right_iff.2 (List.forall₂_same.2 ?_))
    intro e _
    show (numbers? (topicEntry e).2).map _ = _
    rw [numbers?_topicEntry]
    rfl
  have read := ofPack?_map hosts (statusWord?_of_only words) topics
  have entries : (a.textsWith others).map packEntry =
      a.statusEntry :: a.hostEntry :: a.carried.entries.map topicEntry := by
    show _ :: _ :: (others.map packEntry) = _
    rw [List.map_map]
    rfl
  rwa [entries] at read

/-! ## Reading the whole -/

/-- How the bytes of an announcement are read. -/
theorem value?_write (a : Announcement) :
    value? maxDepth a.toPack.write =
      (times? (pair? (value? 1022)) (headCount (a.carried.size + 2))
        (write a.statusEntry.1 ++ write a.statusEntry.2 ++ (write a.hostEntry.1 ++
          write a.hostEntry.2 ++ writeEntries (a.carried.entries.map packTopic)))).map
        fun (entries, rest) => (.map entries, rest) := by
  have count : (a.statusEntry :: a.hostEntry :: a.carried.entries.map packTopic).length =
      a.carried.size + 2 := by
    simp [KeyMap.size]
  have h := value?_map (a.statusEntry :: a.hostEntry :: a.carried.entries.map packTopic) 1022 []
  rw [List.append_nil, count] at h
  exact h.trans (by simp [writeEntries])

/-- The first two entries are read before the others. -/
theorem times?_status_host {a : Announcement} (fits : TextFits a.host) (n : Nat) (rest : Bytes) :
    times? (pair? (value? 1022)) (n + 2) (write a.statusEntry.1 ++ write a.statusEntry.2 ++
        (write a.hostEntry.1 ++ write a.hostEntry.2 ++ rest)) =
      (times? (pair? (value? 1022)) n rest).map fun (entries, rest) =>
        (a.statusEntry :: a.hostEntry :: entries, rest) := by
  rw [times?, pair?_statusEntry]
  dsimp only
  rw [times?, pair?_hostEntry fits]
  dsimp only
  cases times? (pair? (value? 1022)) n rest <;> rfl

theorem ofWord?_word (s : Status) : Status.ofWord? s.word = some s := by
  cases s <;> rfl

theorem ofRaw_word {host : String} (h : host ≠ "") (s : Status)
    (topics : List (String × Nat × Nat)) :
    ofRaw ⟨host, s.word, topics⟩ =
      .ok ⟨s, host, if s = .connected then served topics else .empty⟩ := by
  unfold ofRaw
  rw [if_neg h, ofWord?_word]
  cases s <;> rfl

/-- **Whatever is read from the bytes of an announcement** has its status and its
host, if the host is not too long. -/
theorem status_host_of_decode {a b : Announcement} {bytes : Bytes} (fits : TextFits a.host)
    (written : a.encode = .ok bytes) (read : decode bytes = .ok b) :
    b.status = a.status ∧ b.host = a.host := by
  obtain ⟨host, -, rfl⟩ := encode_eq_ok written
  unfold decode read? at read
  rw [value?_write, Option.map_map] at read
  -- a number of entries that is too large may be read as none or one
  match hn : headCount (a.carried.size + 2) with
  | 0 =>
    rw [hn] at read
    cases read
  | 1 =>
    rw [hn, times?, pair?_statusEntry] at read
    cases read
  | n + 2 =>
    rw [hn, times?_status_host fits] at read
    cases ht : times? (pair? (value? 1022)) n (writeEntries (a.carried.entries.map packTopic)) with
    | none =>
      rw [ht] at read
      cases read
    | some entries =>
      rw [ht] at read
      cases hr : Raw.ofPack? (.map (a.statusEntry :: a.hostEntry :: entries.1)) with
      | none =>
        simp [hr] at read
      | some raw =>
        obtain ⟨raw_host, word, topics⟩ := raw
        obtain ⟨rfl, rfl⟩ := status_host_of_raw hr
        have read' : ofRaw ⟨a.host, a.status.word, topics⟩ = .ok b := by simpa [hr] using read
        rw [ofRaw_word host] at read'
        cases read'
        exact ⟨rfl, rfl⟩

/-- The bytes of an announcement are read to the last one. -/
theorem value?_toPack {a : Announcement} (fits : a.Fits) :
    value? maxDepth a.toPack.write =
      some (.map (a.statusEntry :: a.hostEntry :: a.carried.entries.map topicEntry), []) := by
  have entries := times?_writeEntries packTopic topicEntry a.carried.entries
    (fun e he rest => pair?_packTopic (fits.topics e he) 1021 rest) []
  rw [List.append_nil] at entries
  rw [value?_write, headCount_of_lt fits.count, times?_status_host fits.host]
  show ((times? _ a.carried.entries.length _).map _).map _ = _
  rw [entries]
  rfl

/-- An announcement is read from its bytes, whatever follows them. -/
theorem decode_append {a : Announcement} (host : a.host ≠ "")
    (keys : ∀ topic ∈ a.topics.keys, isReservedKey topic = false) (fits : a.Fits) (more : Bytes) :
    decode (a.toPack.write ++ more) = .ok ⟨a.status, a.host, a.carried⟩ := by
  rw [decode, read?, ignoresRest_value? maxDepth (value?_toPack fits) more, Option.map_some,
    Option.bind_some, ofPack?_entries keys]
  dsimp only
  rw [ofRaw_word host, served_eq]
  cases hs : a.status with
  | connected => rfl
  | disconnected => simp [carried, hs]

/-- **An announcement whose lengths fit reads back** to what it carries. -/
theorem decode_encode {a : Announcement} {bytes : Bytes} (fits : a.Fits)
    (written : a.encode = .ok bytes) : decode bytes = .ok ⟨a.status, a.host, a.carried⟩ := by
  obtain ⟨host, keys, rfl⟩ := encode_eq_ok written
  have read := decode_append host keys fits []
  rwa [List.append_nil] at read

/-- Of an announcement's bytes no proper beginning says anything. -/
theorem decode_cut {a : Announcement} (fits : a.Fits) {part : Bytes}
    (begins : part <+: a.toPack.write) (short : part ≠ a.toPack.write) :
    decode part = .error .illFormed := by
  have nothing : value? maxDepth part = none :=
    (ignoresRest_value? maxDepth).cut_short (value?_toPack fits) begins short
  unfold decode read?
  rw [nothing]
  rfl

/-- What is read back from the bytes of an announcement: all of it, or of one that says
farewell all but the topics. -/
def heardAs (a : Announcement) : Announcement :=
  match a.status with
  | .connected => a
  | .disconnected => departure a.host

theorem heardAs_eq (a : Announcement) : a.heardAs = ⟨a.status, a.host, a.carried⟩ := by
  obtain ⟨status, host, topics⟩ := a
  cases status <;> rfl

/-- **An announcement crosses the wire** whole or not at all.  If it has a host, no topic
with a reserved name and no length over 32 bits, it has bytes; with anything behind them
they read back to it, and cut off anywhere they are malformed. -/
theorem crosses_the_wire {a : Announcement} (host : a.host ≠ "")
    (plain : ∀ topic ∈ a.topics.keys, topic ≠ "status" ∧ topic ≠ "host") (fits : a.Fits) :
    ∃ bytes, a.encode = .ok bytes ∧
      (∀ more, decode (bytes ++ more) = .ok a.heardAs) ∧
      ∀ part, part <+: bytes → part ≠ bytes →
        ∃ text, (decode part).mapError DecodeFault.toError = .error (.malformedAnnouncement text) := by
  have keys : ∀ topic ∈ a.topics.keys, isReservedKey topic = false := fun topic there => by
    simp [isReservedKey, plain topic there]
  refine ⟨a.toPack.write, encode_ok host keys, fun more => ?_, fun part begins short => ?_⟩
  · rw [decode_append host keys fits more, heardAs_eq]
  · rw [decode_cut fits begins short]
    exact ⟨_, rfl⟩

/-- An announcement of a topic whose name is just too long for a head of one byte. -/
def longNamed : Announcement :=
  ⟨.connected, "10.0.0.7",
    KeyMap.empty.insert (String.ofList (List.replicate 32 'a')) ⟨.peerRtc, 40123⟩⟩

theorem crosses_the_wire_with_long_name :
    ∃ bytes, longNamed.encode = .ok bytes ∧
      (∀ more, decode (bytes ++ more) = .ok longNamed) ∧
      ∀ part, part <+: bytes → part ≠ bytes →
        ∃ text, (decode part).mapError DecodeFault.toError = .error (.malformedAnnouncement text) :=
  crosses_the_wire (a := longNamed) (by decide) (by decide +kernel)
    ⟨by decide, by decide, by decide +kernel⟩

end TopicMesh.Announcement
