import Mathlib.Data.List.Forall2
import TopicMesh.Proofs.Pack.Reading

/-!
# The forms of values

MessagePack lets a writer choose.  A text has a head with its length, a number may be
wider than it need be and with a sign or without, a map has its number of entries in the
head byte or behind it.  `TextForm`, `NumberForm` and `MapForm` are the forms that may be
chosen, whatever a reader makes of them.

**A reader takes every form** for the value that it is a form of, and leaves what follows
(`readAs_text`, `readAs_number`, `ReadAs.map`).  What a map holds is read one entry after
the other, each as if it were alone (`ReadAs.series`).
-/

namespace TopicMesh.Pack

/-- The bytes of a text, given by its own bytes. -/
inductive TextForm (data : Bytes) : Bytes → Prop
  | short (fits : data.length < 32) : TextForm data (UInt8.ofNat (0xA0 + data.length) :: data)
  | sized (head : UInt8) (width : Nat) (known : (head, width) ∈ [(0xD9, 1), (0xDA, 2), (0xDB, 4)])
      (fits : data.length < widthBound width) :
      TextForm data (head :: (bigEndian data.length width ++ data))

/-- The bytes of a natural number. -/
inductive NumberForm (n : Nat) : Bytes → Prop
  | short (fits : n < 0x80) : NumberForm n [UInt8.ofNat n]
  | unsigned (head : UInt8) (width : Nat)
      (known : (head, width) ∈ [(0xCC, 1), (0xCD, 2), (0xCE, 4), (0xCF, 8)])
      (fits : n < widthBound width) : NumberForm n (head :: bigEndian n width)
  | signed (head : UInt8) (width : Nat)
      (known : (head, width) ∈ [(0xD0, 1), (0xD1, 2), (0xD2, 4), (0xD3, 8)])
      (fits : n < widthBound width / 2) : NumberForm n (head :: bigEndian n width)

section

variable {α : Type} (form : α → Bytes → Prop)

/-- The bytes of some things one after the other. -/
inductive Series : List α → Bytes → Prop
  | nil : Series [] []
  | cons {a : α} {as : List α} {bytes rest : Bytes} (first : form a bytes)
      (others : Series as rest) : Series (a :: as) (bytes ++ rest)

/-- The bytes of a map with some entries, in their order. -/
inductive MapForm (entries : List α) : Bytes → Prop
  | short {bytes : Bytes} (fits : entries.length < 16) (each : Series form entries bytes) :
      MapForm entries (UInt8.ofNat (0x80 + entries.length) :: bytes)
  | sized (head : UInt8) (width : Nat) {bytes : Bytes}
      (known : (head, width) ∈ [(0xDE, 2), (0xDF, 4)])
      (fits : entries.length < widthBound width) (each : Series form entries bytes) :
      MapForm entries (head :: (bigEndian entries.length width ++ bytes))

end

/-- The bytes of an entry: those of its key, then those of its value. -/
inductive EntryForm (key value : Bytes → Prop) : Bytes → Prop
  | mk {front back : Bytes} (named : key front) (held : value back) :
      EntryForm key value (front ++ back)

/-- Whether bytes of some form are read as something of a kind, whatever follows them. -/
def ReadAs {α : Type} (read : Bytes → Option (α × Bytes)) (form : Bytes → Prop)
    (kind : α → Prop) : Prop :=
  ∀ ⦃bytes⦄, form bytes → ∃ a, kind a ∧ ∀ rest, read (bytes ++ rest) = some (a, rest)

/-! ## Texts and numbers -/

/-- A value that is whole at its head may be nested in anything, unless it is an extension. -/
theorem value?_of_whole {v : Pack} {bytes rest : Bytes}
    (plain : ∀ kind data, v ≠ .extension kind data) (atHead : head? bytes = some (.whole v, rest))
    (depth : Nat) : value? depth bytes = some (v, rest) := by
  cases depth with
  | succ depth => rw [value?, atHead]
  | zero =>
    rw [value?, atHead]
    cases v with
    | extension kind data => exact absurd rfl (plain kind data)
    | _ => rfl

theorem head?_textForm {data bytes : Bytes} (form : TextForm data bytes) (rest : Bytes) :
    head? (bytes ++ rest) = some (.whole (.blob data), rest) := by
  have behind : blob? data.length (data ++ rest) = some (.whole (.blob data), rest) := by
    rw [blob?, takeExactly_append]
    rfl
  cases form with
  | short fits =>
    show head? (UInt8.ofNat (0xA0 + data.length) :: (data ++ rest)) = _
    rw [head?, toNat_ofNat_of_lt (by omega), if_neg (by omega), if_neg (by omega),
      if_neg (by omega), if_pos (by omega), Nat.add_sub_cancel_left, behind]
  | sized head width known fits =>
    have sized : sizedBlob? width (bigEndian data.length width ++ data ++ rest) =
        some (.whole (.blob data), rest) := by
      rw [List.append_assoc, sizedBlob?, takeNumber_bigEndian fits]
      exact behind
    simp only [List.mem_cons, Prod.mk.injEq, List.not_mem_nil, or_false] at known
    obtain ⟨rfl, rfl⟩ | ⟨rfl, rfl⟩ | ⟨rfl, rfl⟩ := known <;> exact sized

/-- **A text is read in whichever form.** -/
theorem readAs_text (data : Bytes) (depth : Nat) :
    ReadAs (value? depth) (TextForm data) (· = .blob data) :=
  fun _ form => ⟨_, rfl, fun rest =>
    value?_of_whole (fun _ _ same => by cases same) (head?_textForm form rest) depth⟩

/-- Whether a value is a natural number, in a form with a sign or without. -/
def IsNumber (n : Nat) (v : Pack) : Prop :=
  (∃ width, v = .unsigned n width) ∨ v = .signed n

/-- **A number is read in whichever form.** -/
theorem readAs_number (n depth : Nat) : ReadAs (value? depth) (NumberForm n) (IsNumber n) := by
  intro bytes form
  cases form with
  | short fits =>
    refine ⟨.unsigned n 0, .inl ⟨0, rfl⟩, fun rest =>
      value?_of_whole (fun _ _ same => by cases same) ?_ depth⟩
    show head? (UInt8.ofNat n :: rest) = _
    rw [head?, toNat_ofNat_of_lt (by omega), if_pos fits]
  | unsigned head width known fits =>
    refine ⟨.unsigned n width, .inl ⟨width, rfl⟩, fun rest =>
      value?_of_whole (fun _ _ same => by cases same) ?_ depth⟩
    have behind : unsigned? width (bigEndian n width ++ rest) =
        some (.whole (.unsigned n width), rest) := by
      rw [unsigned?, takeNumber_bigEndian fits]
      rfl
    simp only [List.mem_cons, Prod.mk.injEq, List.not_mem_nil, or_false] at known
    obtain ⟨rfl, rfl⟩ | ⟨rfl, rfl⟩ | ⟨rfl, rfl⟩ | ⟨rfl, rfl⟩ := known <;> exact behind
  | signed head width known fits =>
    refine ⟨.signed n, .inr rfl, fun rest =>
      value?_of_whole (fun _ _ same => by cases same) ?_ depth⟩
    have behind : signed? width (bigEndian n width ++ rest) = some (.whole (.signed n), rest) := by
      rw [signed?, takeNumber_bigEndian (Nat.lt_of_lt_of_le fits (Nat.div_le_self _ _))]
      show some (Head.whole (.signed (ofTwosComplement n width)), rest) = _
      rw [ofTwosComplement, if_pos fits]
    simp only [List.mem_cons, Prod.mk.injEq, List.not_mem_nil, or_false] at known
    obtain ⟨rfl, rfl⟩ | ⟨rfl, rfl⟩ | ⟨rfl, rfl⟩ | ⟨rfl, rfl⟩ := known <;> exact behind

/-! ## Maps -/

theorem ReadAs.entry {read : Bytes → Option (Pack × Bytes)} {key value : Bytes → Prop}
    {named held : Pack → Prop} (keys : ReadAs read key named) (values : ReadAs read value held) :
    ReadAs (pair? read) (EntryForm key value) fun e => named e.1 ∧ held e.2 := by
  rintro _ ⟨front, back⟩
  obtain ⟨k, is_key, read_key⟩ := keys front
  obtain ⟨v, is_value, read_value⟩ := values back
  refine ⟨(k, v), ⟨is_key, is_value⟩, fun rest => ?_⟩
  rw [List.append_assoc, pair?, read_key]
  dsimp only
  rw [read_value]
  rfl

section

variable {α β : Type} {form : α → Bytes → Prop} {kind : α → β → Prop} {items : List α}

/-- **Things one after the other are read one by one**, each as if it were alone. -/
theorem ReadAs.series {read : Bytes → Option (β × Bytes)}
    (each : ∀ a ∈ items, ReadAs read (form a) (kind a)) :
    ReadAs (times? read items.length) (Series form items) (List.Forall₂ kind items) := by
  intro bytes written
  induction written with
  | nil => exact ⟨[], .nil, fun rest => rfl⟩
  | cons first _ ih =>
    obtain ⟨b, is_first, read_first⟩ := each _ List.mem_cons_self first
    obtain ⟨bs, are_others, read_others⟩ := ih fun a there => each a (List.mem_cons_of_mem _ there)
    refine ⟨b :: bs, .cons is_first are_others, fun rest => ?_⟩
    rw [List.append_assoc, List.length_cons, times?, read_first]
    dsimp only
    rw [read_others]
    rfl

theorem head?_mapForm {bytes : Bytes} (written : MapForm form items bytes) :
    ∃ behind, Series form items behind ∧
      ∀ rest, head? (bytes ++ rest) = some (.entries items.length, behind ++ rest) := by
  cases written with
  | @short behind fits each =>
    refine ⟨behind, each, fun rest => ?_⟩
    show head? (UInt8.ofNat (0x80 + items.length) :: (behind ++ rest)) = _
    rw [head?, toNat_ofNat_of_lt (by omega), if_neg (by omega), if_pos (by omega),
      Nat.add_sub_cancel_left]
  | @sized head width behind known fits each =>
    refine ⟨behind, each, fun rest => ?_⟩
    have sized : sizedEntries? width (bigEndian items.length width ++ behind ++ rest) =
        some (.entries items.length, behind ++ rest) := by
      rw [List.append_assoc, sizedEntries?, takeNumber_bigEndian fits]
      rfl
    simp only [List.mem_cons, Prod.mk.injEq, List.not_mem_nil, or_false] at known
    obtain ⟨rfl, rfl⟩ | ⟨rfl, rfl⟩ := known <;> exact sized

/-- **A map is read in whichever form**, if its entries are. -/
theorem ReadAs.map {depth : Nat} {kind : α → Pack × Pack → Prop}
    (each : ∀ a ∈ items, ReadAs (pair? (value? depth)) (form a) (kind a)) :
    ReadAs (value? (depth + 1)) (MapForm form items)
      fun v => ∃ entries, v = .map entries ∧ List.Forall₂ kind items entries := by
  intro bytes written
  obtain ⟨behind, parts, atHead⟩ := head?_mapForm written
  obtain ⟨entries, are_items, read_entries⟩ := ReadAs.series each parts
  refine ⟨.map entries, ⟨entries, rfl, are_items⟩, fun rest => ?_⟩
  rw [value?, atHead]
  dsimp only
  rw [read_entries]
  rfl

end

end TopicMesh.Pack
