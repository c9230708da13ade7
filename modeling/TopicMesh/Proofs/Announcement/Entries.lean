import TopicMesh.Proofs.Announcement.RoundTrip
import TopicMesh.Proofs.Pack.Forms

/-!
# Announcements entry by entry

A later node may announce what an earlier one does not know: a sixth protocol, a port
that is none.  So the entries of an announcement are taken one by one.  Here a payload
is given by what its entries say (`Item`), in any order and each in any of its forms
(`Item.Form`), as long as it has a host and no key twice (`Announces`).

**Such a payload is always read** (`decode_of_items`).  The topics are those whose
numbers stand for a capability, each with that capability, and the others are as if they
had not been sent (`Serves`).  The order of the entries does not matter, and neither do
the forms: `decode_entry_by_entry`.
-/

namespace TopicMesh.Announcement

open Pack

/-- What an entry of an announcement says. -/
inductive Item
  | status (s : Status)
  | host (name : String)
  | topic (name : String) (protocol port : Nat)
deriving DecidableEq

namespace Item

/-- The key of an entry. -/
def key : Item → String
  | status _ => "status"
  | host _ => "host"
  | topic name .. => name

/-- The bytes of a field of a topic. -/
def fieldForm (field : String × Nat) : Bytes → Prop :=
  EntryForm (TextForm (Utf8.encode field.1)) (NumberForm field.2)

/-- The bytes of an entry's value: a text, or a map of two fields in either order. -/
def valueForm : Item → Bytes → Prop
  | status s => TextForm (Utf8.encode s.word)
  | host name => TextForm (Utf8.encode name)
  | topic _ protocol port => fun bytes =>
    MapForm fieldForm [("protocol", protocol), ("port", port)] bytes ∨
      MapForm fieldForm [("port", port), ("protocol", protocol)] bytes

/-- The bytes of an entry. -/
def Form (item : Item) : Bytes → Prop :=
  EntryForm (TextForm (Utf8.encode item.key)) item.valueForm

/-- What an entry's value is read as. -/
def Holds : Item → Pack → Prop
  | status s => (· = packText s.word)
  | host name => (· = packText name)
  | topic _ protocol port => (numbers? · = some (protocol, port))

/-- The numbers that an entry says of a topic. -/
def numbers? : Item → Option (String × Nat × Nat)
  | topic name protocol port => some (name, protocol, port)
  | _ => none

end Item

/-- Whether some entries make up an announcement of a host: no key is there twice, the
host is among them, and of topics they say what fits 32 bits. -/
structure Announces (host : String) (items : List Item) : Prop where
  distinct : (items.map Item.key).Nodup
  named : host ≠ ""
  host : .host host ∈ items
  topics : ∀ {name protocol port}, .topic name protocol port ∈ items →
    isReservedKey name = false ∧ protocol < 0x100000000 ∧ port < 0x100000000

/-- **Whether topics are those that some entries say**, as far as they make sense: nothing
is served but what an entry says, and an entry counts if its protocol is the bit of one
and its port fits 16 bits. -/
structure Serves (items : List Item) (topics : KeyMap String Capability) : Prop where
  only : ∀ {name cap}, topics.get? name = some cap →
    .topic name cap.protocol.bits cap.port.toNat ∈ items
  each : ∀ {name protocol port}, .topic name protocol port ∈ items →
    protocol ∈ [1, 2, 4, 8, 16] → port ≤ 65535 →
      ∃ cap, topics.get? name = some cap ∧ cap.protocol.bits = protocol ∧ cap.port.toNat = port

/-! ## Reading one entry -/

theorem uint32?_of_isNumber {n : Nat} {v : Pack} (number : IsNumber n v) (fits : n < 0x100000000) :
    uint32? v = some n := by
  obtain ⟨width, rfl⟩ | rfl := number
  · exact if_pos fits
  · rw [uint32?, if_pos (by omega), Int.toNat_natCast]

/-- The fields of a topic are found in whichever order they come. -/
theorem numbers?_of_fields {protocol port : Nat} {v : Pack} (small : protocol < 0x100000000)
    (narrow : port < 0x100000000) {p q : Pack × Pack}
    (isProtocol : p.1 = packText "protocol" ∧ IsNumber protocol p.2)
    (isPort : q.1 = packText "port" ∧ IsNumber port q.2)
    (either : v = .map [p, q] ∨ v = .map [q, p]) : numbers? v = some (protocol, port) := by
  obtain ⟨key, value⟩ := p
  obtain ⟨key', value'⟩ := q
  obtain ⟨rfl, number⟩ := isProtocol
  obtain ⟨rfl, number'⟩ := isPort
  obtain rfl | rfl := either <;>
    simp [numbers?, fieldValues?, ofKey?_protocol, ofKey?_port, uint32?_of_isNumber number small,
      uint32?_of_isNumber number' narrow]

theorem readAs_field (field : String × Nat) (depth : Nat) :
    ReadAs (pair? (value? depth)) (Item.fieldForm field)
      fun e => e.1 = packText field.1 ∧ IsNumber field.2 e.2 :=
  (readAs_text _ depth).entry (readAs_number _ depth)

/-- **An entry is read as what it says**, in whichever form. -/
theorem readAs_item {host : String} {items : List Item} (announces : Announces host items)
    {item : Item} (there : item ∈ items) (depth : Nat) :
    ReadAs (pair? (value? (depth + 1))) item.Form
      fun e => e.1 = packText item.key ∧ item.Holds e.2 := by
  refine (readAs_text _ _).entry ?_
  cases item with
  | status s => exact readAs_text _ _
  | host name => exact readAs_text _ _
  | topic name protocol port =>
    obtain ⟨-, small, narrow⟩ := announces.topics there
    intro bytes form
    rcases form with form | form
    · obtain ⟨v, ⟨entries, rfl, fields⟩, read⟩ := ReadAs.map (fun f _ => readAs_field f depth) form
      refine ⟨_, ?_, read⟩
      cases fields with
      | cons first fields =>
        cases fields with
        | cons second fields =>
          cases fields
          exact numbers?_of_fields small narrow first second (.inl rfl)
    · obtain ⟨v, ⟨entries, rfl, fields⟩, read⟩ := ReadAs.map (fun f _ => readAs_field f depth) form
      refine ⟨_, ?_, read⟩
      cases fields with
      | cons first fields =>
        cases fields with
        | cons second fields =>
          cases fields
          exact numbers?_of_fields small narrow second first (.inr rfl)

/-- Whether the entries of a map are read as what some entries say, one for one. -/
def Told (items : List Item) (texts : List (String × Pack)) : Prop :=
  List.Forall₂ (fun item t => t.1 = item.key ∧ item.Holds t.2) items texts

/-- The entries that are read are those that were written, one for one. -/
theorem value?_of_form {host : String} {items : List Item} (announces : Announces host items)
    {bytes : Bytes} (written : MapForm Item.Form items bytes) :
    ∃ texts, value? maxDepth bytes = some (.map (texts.map packEntry), []) ∧
      Told items texts := by
  obtain ⟨v, ⟨entries, rfl, each⟩, read⟩ :=
    ReadAs.map (fun item there => readAs_item announces there 1021) written
  have found := read []
  rw [List.append_nil] at found
  suffices named : ∃ texts, entries = texts.map packEntry ∧
      Told items texts by
    obtain ⟨texts, rfl, told⟩ := named
    exact ⟨texts, found, told⟩
  clear announces written read found
  induction each with
  | nil => exact ⟨[], rfl, .nil⟩
  | @cons item e items entries first _ ih =>
    obtain ⟨texts, rfl, told⟩ := ih
    refine ⟨(item.key, e.2) :: texts, ?_, .cons ⟨rfl, first.2⟩ told⟩
    rw [List.map_cons, packEntry, ← first.1]

/-! ## Reading the parts -/

/-- The topics that some entries speak of. -/
def topicsIn (items : List Item) : List (String × Nat × Nat) :=
  items.filterMap Item.numbers?

/-- The status that some entries speak of; connected unless they say farewell. -/
def statusIn (items : List Item) : Status :=
  if .status .disconnected ∈ items then .disconnected else .connected

theorem mem_topicsIn {items : List Item} {t : String × Nat × Nat} :
    t ∈ topicsIn items ↔ .topic t.1 t.2.1 t.2.2 ∈ items := by
  unfold topicsIn
  rw [List.mem_filterMap]
  constructor
  · rintro ⟨item, there, same⟩
    cases item with
    | topic name protocol port =>
      cases same
      exact there
    | _ => cases same
  · exact fun there => ⟨_, there, rfl⟩

theorem sublist_topicsIn (items : List Item) :
    ((topicsIn items).map Prod.fst).Sublist (items.map Item.key) := by
  induction items with
  | nil => exact .slnil
  | cons item items ih =>
    cases item with
    | topic name protocol port => exact ih.cons_cons name
    | status s => exact ih.cons _
    | host name => exact ih.cons _

section

variable {host : String} {items : List Item} {texts : List (String × Pack)}
  (told : Told items texts)
include told

theorem map_fst_of_told : texts.map Prod.fst = items.map Item.key := by
  induction told with
  | nil => rfl
  | cons first _ ih => rw [List.map_cons, List.map_cons, first.1, ih]

theorem exists_mem_of_told {item : Item} (there : item ∈ items) :
    ∃ value, (item.key, value) ∈ texts ∧ item.Holds value := by
  induction told with
  | nil => cases there
  | @cons _ t _ _ first _ ih =>
    rcases List.mem_cons.1 there with rfl | there
    · exact ⟨t.2, first.1 ▸ List.mem_cons_self, first.2⟩
    · obtain ⟨value, found, holds⟩ := ih there
      exact ⟨value, List.mem_cons_of_mem _ found, holds⟩

/-- The value of an entry is the only one with its key. -/
theorem valuesOf_key (announces : Announces host items) {item : Item} (there : item ∈ items) :
    ∃ value, valuesOf item.key texts = [value] ∧ item.Holds value := by
  obtain ⟨value, found, holds⟩ := exists_mem_of_told told there
  exact ⟨value, valuesOf_of_mem ((map_fst_of_told told).symm ▸ announces.distinct) found, holds⟩

theorem statusWord?_of_told (announces : Announces host items) :
    statusWord? texts = some (statusIn items).word := by
  have of_mem : ∀ s, .status s ∈ items → statusWord? texts = some s.word := by
    intro s there
    obtain ⟨_, only, rfl⟩ := valuesOf_key told announces there
    exact statusWord?_of_only only
  unfold statusIn
  split
  · next gone => exact of_mem _ gone
  · next here =>
    by_cases said : .status .connected ∈ items
    · exact of_mem _ said
    · -- an entry with the key of the status would be a status or a topic
      have unsaid : "status" ∉ texts.map Prod.fst := by
        rw [map_fst_of_told told]
        intro keyed
        obtain ⟨item, there, same⟩ := List.mem_map.1 keyed
        cases item with
        | status s =>
          cases s with
          | connected => exact said there
          | disconnected => exact here there
        | host name => simp [Item.key] at same
        | topic name protocol port =>
          have plain := (announces.topics there).1
          rw [show name = "status" from same] at plain
          cases plain
      rw [statusWord?, valuesOf_of_not_mem unsaid]

theorem topics?_of_told
    (plain : ∀ {name protocol port}, .topic name protocol port ∈ items →
      isReservedKey name = false) : topics? texts = some (topicsIn items) := by
  induction told with
  | nil => rfl
  | @cons item t items texts first _ ih =>
    have others := ih fun there => plain (List.mem_cons_of_mem _ there)
    unfold topics? at others ⊢
    obtain ⟨name, value⟩ := t
    obtain ⟨rfl, holds⟩ := first
    cases item with
    | status s => exact others
    | host name => exact others
    | topic name protocol port =>
      have free : isReservedKey name = false := plain List.mem_cons_self
      rw [List.filter_cons, if_pos (by simp [Item.key, free]), List.mapM_cons, others]
      simp only [show numbers? value = some (protocol, port) from holds]
      rfl

end

/-! ## The topics that are served -/

theorem capability?_eq_some_iff {numbers : Nat × Nat} {cap : Capability} :
    capability? numbers = some cap ↔ numbers = (cap.protocol.bits, cap.port.toNat) := by
  constructor
  · intro known
    unfold capability? at known
    split at known
    · cases known
    · next protocol bits =>
      split at known
      · next narrow =>
        cases known
        refine Prod.ext (Protocol.bits_of_ofBits? bits).symm ?_
        exact (UInt16.toNat_ofNat_of_lt' narrow).symm
      · cases known
  · rintro rfl
    exact capability?_bits_port cap

theorem exists_capability {protocol port : Nat} (bit : protocol ∈ [1, 2, 4, 8, 16])
    (narrow : port ≤ 65535) :
    ∃ cap : Capability, cap.protocol.bits = protocol ∧ cap.port.toNat = port := by
  have known : ∃ p : Protocol, p.bits = protocol := by
    simp only [List.mem_cons, List.not_mem_nil, or_false] at bit
    obtain rfl | rfl | rfl | rfl | rfl := bit
    exacts [⟨.broker, rfl⟩, ⟨.stream, rfl⟩, ⟨.datagram, rfl⟩, ⟨.secureStream, rfl⟩, ⟨.peerRtc, rfl⟩]
  obtain ⟨p, bits⟩ := known
  exact ⟨⟨p, UInt16.ofNat port⟩, bits, UInt16.toNat_ofNat_of_lt' (Nat.lt_succ_of_le narrow)⟩

/-- **A topic is served with a capability if an entry says so**, and not otherwise. -/
theorem get?_served_topicsIn {host : String} {items : List Item} (announces : Announces host items)
    {name : String} {cap : Capability} :
    (served (topicsIn items)).get? name = some cap ↔
      .topic name cap.protocol.bits cap.port.toNat ∈ items := by
  have distinct := announces.distinct.sublist (sublist_topicsIn items)
  constructor
  · intro found
    obtain ⟨t, there, rfl⟩ := mem_of_mem_keys_served (KeyMap.mem_keys_iff.2 ⟨cap, found⟩)
    rw [get?_served_of_mem distinct there] at found
    have same := capability?_eq_some_iff.1 found
    have said := mem_topicsIn.1 there
    rwa [same] at said
  · intro said
    have there : (name, cap.protocol.bits, cap.port.toNat) ∈ topicsIn items := mem_topicsIn.2 said
    exact (get?_served_of_mem distinct there).trans (capability?_bits_port cap)

theorem serves_served {host : String} {items : List Item} (announces : Announces host items) :
    Serves items (served (topicsIn items)) where
  only := (get?_served_topicsIn announces).1
  each := by
    intro name protocol port said bit narrow
    obtain ⟨cap, rfl, rfl⟩ := exists_capability bit narrow
    exact ⟨cap, (get?_served_topicsIn announces).2 said, rfl, rfl⟩

/-! ## The whole -/

section

variable {host : String} {items : List Item} {bytes : Bytes}

/-- **What the entries say is what is read.** -/
theorem decode_of_items (announces : Announces host items)
    (written : MapForm Item.Form items bytes) :
    decode bytes = .ok ⟨statusIn items, host,
      if statusIn items = .connected then served (topicsIn items) else .empty⟩ := by
  obtain ⟨texts, read, told⟩ := value?_of_form announces written
  obtain ⟨_, hosts, rfl⟩ := valuesOf_key told announces announces.host
  have parts := ofPack?_map hosts (statusWord?_of_told told announces)
    (topics?_of_told told fun there => (announces.topics there).1)
  rw [decode, read?, read, Option.map_some, Option.bind_some, parts]
  exact ofRaw_word announces.named _ _

/-- Entries in another order say the same. -/
theorem decode_of_perm (announces : Announces host items) (written : MapForm Item.Form items bytes)
    {items' : List Item} (reordered : items'.Perm items) {bytes' : Bytes}
    (written' : MapForm Item.Form items' bytes') : decode bytes' = decode bytes := by
  have announces' : Announces host items' :=
    ⟨(reordered.map Item.key).nodup_iff.2 announces.distinct, announces.named,
      reordered.mem_iff.2 announces.host, fun there => announces.topics (reordered.mem_iff.1 there)⟩
  have status : statusIn items' = statusIn items := by
    unfold statusIn
    simp only [reordered.mem_iff]
  have topics : served (topicsIn items') = served (topicsIn items) := by
    refine KeyMap.ext_get? fun name => Option.ext fun cap => ?_
    rw [get?_served_topicsIn announces', get?_served_topicsIn announces, reordered.mem_iff]
  rw [decode_of_items announces' written', decode_of_items announces written, status, topics]

/-- **An announcement is read entry by entry.**  If a payload has a host and no key twice,
then it is read; its topics are those that make sense, and if it says farewell the host is
all that is left.  The same entries in another order, and in other forms, are read the
same. -/
theorem decode_entry_by_entry (announces : Announces host items)
    (written : MapForm Item.Form items bytes) :
    (.status .disconnected ∉ items →
      ∃ topics, decode bytes = .ok ⟨.connected, host, topics⟩ ∧ Serves items topics) ∧
    (.status .disconnected ∈ items → decode bytes = .ok (departure host)) ∧
    ∀ items' bytes', items'.Perm items → MapForm Item.Form items' bytes' →
      decode bytes' = decode bytes := by
  have read := decode_of_items announces written
  refine ⟨fun here => ⟨served (topicsIn items), ?_, serves_served announces⟩, fun gone => ?_,
    fun items' bytes' reordered => decode_of_perm announces written reordered⟩
  · rwa [statusIn, if_neg here, if_pos rfl] at read
  · rwa [statusIn, if_pos gone, if_neg (by decide)] at read

end

/-- A topic that makes sense among two that do not, around the host. -/
def mixedItems : List Item :=
  [.topic "u" 3 80, .topic "t" 2 8080, .host "h", .topic "v" 1 70000]

/-- They are written with some lengths and numbers wider than need be, or with a sign, and
in one topic the port comes first. -/
def mixedBytes : Bytes :=
  [0xDE, 0, 4,
    0xA1, 0x75, 0x82, 0xA8, 0x70, 0x72, 0x6F, 0x74, 0x6F, 0x63, 0x6F, 0x6C, 3,
      0xA4, 0x70, 0x6F, 0x72, 0x74, 80,
    0xD9, 1, 0x74, 0xDE, 0, 2, 0xD9, 4, 0x70, 0x6F, 0x72, 0x74, 0xD1, 0x1F, 0x90,
      0xA8, 0x70, 0x72, 0x6F, 0x74, 0x6F, 0x63, 0x6F, 0x6C, 0xD0, 2,
    0xA4, 0x68, 0x6F, 0x73, 0x74, 0xDA, 0, 1, 0x68,
    0xA1, 0x76, 0x82, 0xA8, 0x70, 0x72, 0x6F, 0x74, 0x6F, 0x63, 0x6F, 0x6C, 1,
      0xA4, 0x70, 0x6F, 0x72, 0x74, 0xCE, 0, 1, 0x11, 0x70]

theorem mixedForm : MapForm Item.Form mixedItems mixedBytes := by
  have u : Item.Form (.topic "u" 3 80) _ :=
    .mk (.short (by decide)) (.inl (.short (by decide)
      (.cons (.mk (.short (by decide)) (.short (by decide)))
        (.cons (.mk (.short (by decide)) (.short (by decide))) .nil))))
  have t : Item.Form (.topic "t" 2 8080) _ :=
    .mk (.sized 0xD9 1 (by decide) (by decide)) (.inr (.sized 0xDE 2 (by decide) (by decide)
      (.cons (.mk (.sized 0xD9 1 (by decide) (by decide)) (.signed 0xD1 2 (by decide) (by decide)))
        (.cons (.mk (.short (by decide)) (.signed 0xD0 1 (by decide) (by decide))) .nil))))
  have h : Item.Form (.host "h") _ :=
    .mk (.short (by decide)) (.sized 0xDA 2 (by decide) (by decide))
  have v : Item.Form (.topic "v" 1 70000) _ :=
    .mk (.short (by decide)) (.inl (.short (by decide)
      (.cons (.mk (.short (by decide)) (.short (by decide)))
        (.cons (.mk (.short (by decide)) (.unsigned 0xCE 4 (by decide) (by decide))) .nil))))
  exact .sized 0xDE 2 (by decide) (by decide) (.cons u (.cons t (.cons h (.cons v .nil))))

theorem mixedAnnounces : Announces "h" mixedItems where
  distinct := by decide
  named := by decide
  host := by decide
  topics := by
    intro name protocol port there
    simp only [mixedItems, List.mem_cons, List.not_mem_nil, Item.topic.injEq, or_false,
      reduceCtorEq, false_or] at there
    obtain ⟨rfl, rfl, rfl⟩ | ⟨rfl, rfl, rfl⟩ | ⟨rfl, rfl, rfl⟩ := there <;> decide

theorem decode_entry_by_entry_mixed :
    ∃ topics, decode mixedBytes = .ok ⟨.connected, "h", topics⟩ ∧ Serves mixedItems topics :=
  (decode_entry_by_entry mixedAnnounces mixedForm).1 (by decide)

end TopicMesh.Announcement
