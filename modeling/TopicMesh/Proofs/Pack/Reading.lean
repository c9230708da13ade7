import TopicMesh.Pack.Reader
import TopicMesh.Pack.Writer

/-!
# Reading what was written

For texts, numbers and maps: a reader at the head of what was written finds it and
goes on behind it.  A number comes back with the width of its shortest form.  A
length is written in at most four bytes, so a text reads back only if it has fewer
than 2^32 of them, and of a map's entries as many are read as their number says
modulo 2^32 (`value?_map`).

Whatever the bytes are, a reader looks no further than the value that it takes
(`ignoresRest_value?`).
-/

namespace TopicMesh.Pack

theorem toNat_ofNat_of_lt {n : Nat} (h : n < 256) : (UInt8.ofNat n).toNat = n := by
  rw [UInt8.toNat_ofNat', Nat.mod_eq_of_lt h]

/-! ## Numbers -/

/-- The width of a number's shortest form. -/
def natWidth (n : Nat) : Nat :=
  if n < 0x80 then 0 else if n < 0x100 then 1 else if n < 0x10000 then 2
  else if n < 0x100000000 then 4 else 8

theorem head?_writeNat {n : Nat} (h : n < 0x10000000000000000) (rest : Bytes) :
    head? (writeNat n ++ rest) = some (.whole (.unsigned n (natWidth n)), rest) := by
  unfold writeNat natWidth
  by_cases one : n < 0x80
  · rw [if_pos one, if_pos one]
    show head? (UInt8.ofNat n :: rest) = _
    rw [head?, toNat_ofNat_of_lt (by omega)]
    exact if_pos one
  rw [if_neg one, if_neg one]
  by_cases two : n < 0x100
  · rw [if_pos two, if_pos two]
    show unsigned? 1 (bigEndian n 1 ++ rest) = _
    rw [unsigned?, takeNumber_bigEndian (show n < 256 from two)]
    rfl
  rw [if_neg two, if_neg two]
  by_cases three : n < 0x10000
  · rw [if_pos three, if_pos three]
    show unsigned? 2 (bigEndian n 2 ++ rest) = _
    rw [unsigned?, takeNumber_bigEndian (show n < 65536 from three)]
    rfl
  rw [if_neg three, if_neg three]
  by_cases four : n < 0x100000000
  · rw [if_pos four, if_pos four]
    show unsigned? 4 (bigEndian n 4 ++ rest) = _
    rw [unsigned?, takeNumber_bigEndian (show n < 4294967296 from four)]
    rfl
  rw [if_neg four, if_neg four]
  show unsigned? 8 (bigEndian n 8 ++ rest) = _
  rw [unsigned?, takeNumber_bigEndian (show n < 18446744073709551616 from h)]
  rfl

/-! ## Texts -/

theorem head?_textHead {n : Nat} (h : n < 0x100000000) (rest : Bytes) :
    head? (textHead n ++ rest) = blob? n rest := by
  unfold textHead
  by_cases one : n < 32
  · rw [if_pos one]
    show head? (UInt8.ofNat (0xA0 + n) :: rest) = _
    rw [head?, toNat_ofNat_of_lt (by omega)]
    rw [if_neg (by omega), if_neg (by omega), if_neg (by omega), if_pos (by omega),
      Nat.add_sub_cancel_left]
  rw [if_neg one]
  by_cases two : n < 0x100
  · rw [if_pos two]
    show sizedBlob? 1 (bigEndian n 1 ++ rest) = _
    rw [sizedBlob?, takeNumber_bigEndian (show n < 256 from two)]
    rfl
  rw [if_neg two]
  by_cases three : n < 0x10000
  · rw [if_pos three]
    show sizedBlob? 2 (bigEndian n 2 ++ rest) = _
    rw [sizedBlob?, takeNumber_bigEndian (show n < 65536 from three)]
    rfl
  rw [if_neg three]
  show sizedBlob? 4 (bigEndian n 4 ++ rest) = _
  rw [sizedBlob?, takeNumber_bigEndian (show n < 4294967296 from h)]
  rfl

theorem head?_writeText {bytes : Bytes} (h : bytes.length < 0x100000000) (rest : Bytes) :
    head? (writeText bytes ++ rest) = some (.whole (.blob bytes), rest) := by
  rw [writeText, List.append_assoc, head?_textHead h, blob?, takeExactly_append]
  rfl

/-! ## Values -/

theorem value?_unsigned {n : Nat} (h : n < 0x10000000000000000) (depth width : Nat)
    (rest : Bytes) :
    value? depth (write (.unsigned n width) ++ rest) = some (.unsigned n (natWidth n), rest) := by
  show value? depth (writeNat n ++ rest) = _
  cases depth <;> simp only [value?, head?_writeNat h]

theorem value?_blob {bytes : Bytes} (h : bytes.length < 0x100000000) (depth : Nat)
    (rest : Bytes) :
    value? depth (write (.blob bytes) ++ rest) = some (.blob bytes, rest) := by
  show value? depth (writeText bytes ++ rest) = _
  cases depth <;> simp only [value?, head?_writeText h]

/-- The number of entries that the head of a map is read to announce. -/
def headCount (n : Nat) : Nat :=
  n % 0x100000000

theorem headCount_of_lt {n : Nat} (h : n < 0x100000000) : headCount n = n :=
  Nat.mod_eq_of_lt h

theorem head?_mapHead (n : Nat) (rest : Bytes) :
    head? (mapHead n ++ rest) = some (.entries (headCount n), rest) := by
  unfold mapHead
  by_cases one : n < 16
  · rw [if_pos one]
    show head? (UInt8.ofNat (0x80 + n) :: rest) = _
    rw [head?, toNat_ofNat_of_lt (by omega)]
    rw [if_neg (by omega), if_pos (by omega), Nat.add_sub_cancel_left,
      headCount_of_lt (by omega)]
  rw [if_neg one]
  by_cases two : n < 0x10000
  · rw [if_pos two]
    show sizedEntries? 2 (bigEndian n 2 ++ rest) = _
    rw [sizedEntries?, takeNumber_bigEndian (show n < 65536 from two), headCount_of_lt (by omega)]
    rfl
  rw [if_neg two]
  show sizedEntries? 4 (bigEndian n 4 ++ rest) = _
  rw [sizedEntries?, takeNumber_bigEndian_mod]
  rfl

/-- Of a map as many entries are read as its head announces. -/
theorem value?_map (entries : List (Pack × Pack)) (depth : Nat) (rest : Bytes) :
    value? (depth + 1) (write (.map entries) ++ rest) =
      (times? (pair? (value? depth)) (headCount entries.length) (writeEntries entries ++ rest)).map
        fun (entries, rest) => (.map entries, rest) := by
  show value? (depth + 1) ((mapHead entries.length ++ writeEntries entries) ++ rest) = _
  rw [List.append_assoc]
  simp only [value?, head?_mapHead]

theorem pair?_append {read : Bytes → Option (Pack × Bytes)} {key value key' value' : Pack}
    {rest : Bytes} (hk : ∀ rest, read (write key ++ rest) = some (key', rest))
    (hv : ∀ rest, read (write value ++ rest) = some (value', rest)) :
    pair? read (write key ++ write value ++ rest) = some ((key', value'), rest) := by
  rw [List.append_assoc, pair?, hk]
  simp [hv]

/-- Entries that are read back one by one are read back together. -/
theorem times?_writeEntries {α : Type} {read : Bytes → Option (Pack × Bytes)}
    (written back : α → Pack × Pack) (as : List α)
    (h : ∀ a ∈ as, ∀ rest, pair? read (write (written a).1 ++ write (written a).2 ++ rest) =
      some (back a, rest)) (rest : Bytes) :
    times? (pair? read) as.length (writeEntries (as.map written) ++ rest) =
      some (as.map back, rest) := by
  induction as with
  | nil => rfl
  | cons a as ih =>
    rw [List.length_cons, times?, List.map_cons, writeEntries, List.append_assoc,
      h a List.mem_cons_self]
    simp [ih fun b hb => h b (List.mem_cons_of_mem _ hb)]

/-! ## What is not read -/

theorem ignoresRest_unsigned? (width : Nat) : IgnoresRest (unsigned? width) :=
  (ignoresRest_takeNumber width).map fun n => Head.whole (.unsigned n width)

theorem ignoresRest_signed? (width : Nat) : IgnoresRest (signed? width) :=
  (ignoresRest_takeNumber width).map fun n => Head.whole (.signed (ofTwosComplement n width))

theorem ignoresRest_blob? (length : Nat) : IgnoresRest (blob? length) :=
  (ignoresRest_takeExactly length).map fun data => Head.whole (.blob data)

theorem ignoresRest_sizedBlob? (width : Nat) : IgnoresRest (sizedBlob? width) :=
  (ignoresRest_takeNumber width).bind ignoresRest_blob?

theorem ignoresRest_float? (width : Nat) : IgnoresRest (float? width) :=
  (ignoresRest_takeExactly width).map fun bits => Head.whole (.float bits)

theorem ignoresRest_extension? (length : Nat) : IgnoresRest (extension? length) := by
  intro bytes head rest h more
  cases bytes with
  | nil => cases h
  | cons kind bytes =>
    exact (ignoresRest_takeExactly length).map (fun data => Head.whole (.extension kind data)) h more

theorem ignoresRest_sizedExtension? (width : Nat) : IgnoresRest (sizedExtension? width) :=
  (ignoresRest_takeNumber width).bind ignoresRest_extension?

theorem ignoresRest_sizedItems? (width : Nat) : IgnoresRest (sizedItems? width) :=
  (ignoresRest_takeNumber width).map Head.items

theorem ignoresRest_sizedEntries? (width : Nat) : IgnoresRest (sizedEntries? width) :=
  (ignoresRest_takeNumber width).map Head.entries

theorem ignoresRest_head? : IgnoresRest head? := by
  intro bytes head rest h more
  cases bytes with
  | nil => cases h
  | cons b bytes =>
    rw [List.cons_append]
    unfold head? at h ⊢
    dsimp only at h ⊢
    generalize b.toNat = n at h ⊢
    by_cases number : n < 0x80
    · rw [if_pos number] at h ⊢
      cases h
      rfl
    rw [if_neg number] at h ⊢
    by_cases map : n < 0x90
    · rw [if_pos map] at h ⊢
      cases h
      rfl
    rw [if_neg map] at h ⊢
    by_cases array : n < 0xA0
    · rw [if_pos array] at h ⊢
      cases h
      rfl
    rw [if_neg array] at h ⊢
    by_cases text : n < 0xC0
    · rw [if_pos text] at h ⊢
      exact ignoresRest_blob? _ h more
    rw [if_neg text] at h ⊢
    by_cases negative : 0xE0 ≤ n
    · rw [if_pos negative] at h ⊢
      cases h
      rfl
    rw [if_neg negative] at h ⊢
    split at h
    any_goals exact ignoresRest_sizedBlob? _ h more
    any_goals exact ignoresRest_sizedExtension? _ h more
    any_goals exact ignoresRest_float? _ h more
    any_goals exact ignoresRest_unsigned? _ h more
    any_goals exact ignoresRest_signed? _ h more
    any_goals exact ignoresRest_extension? _ h more
    any_goals exact ignoresRest_sizedItems? _ h more
    any_goals exact ignoresRest_sizedEntries? _ h more
    all_goals cases h <;> rfl

theorem ignoresRest_times? {α : Type} {read : Bytes → Option (α × Bytes)} (each : IgnoresRest read)
    (n : Nat) : IgnoresRest (times? read n) := by
  induction n with
  | zero =>
    intro bytes none_left rest h more
    cases h
    rfl
  | succ n ih =>
    intro bytes as rest h more
    rw [times?] at h ⊢
    split at h
    · cases h
    · next a between first =>
      obtain ⟨⟨others, rest'⟩, later, same⟩ := Option.map_eq_some_iff.1 h
      cases same
      rw [each first more]
      dsimp only
      rw [ih later more]
      rfl

theorem ignoresRest_pair? {read : Bytes → Option (Pack × Bytes)} (each : IgnoresRest read) :
    IgnoresRest (pair? read) := by
  intro bytes entry rest h more
  rw [pair?] at h ⊢
  split at h
  · cases h
  · next key between first =>
    obtain ⟨⟨value, rest'⟩, second, same⟩ := Option.map_eq_some_iff.1 h
    cases same
    rw [each first more]
    dsimp only
    rw [each second more]
    rfl

/-- **A value is read whatever follows it**, however it is written. -/
theorem ignoresRest_value? (depth : Nat) : IgnoresRest (value? depth) := by
  induction depth with
  | zero =>
    intro bytes v rest h more
    cases atHead : head? bytes with
    | none =>
      rw [value?, atHead] at h
      cases h
    | some found =>
      rw [value?, atHead] at h
      rw [value?, ignoresRest_head? atHead more]
      -- a value that is whole is taken as it is, unless it is nested too deep
      obtain ⟨head, between⟩ := found
      cases head with
      | items n => cases h
      | entries n => cases h
      | whole v' =>
        cases v' with
        | extension kind data => cases h
        | _ =>
          cases h
          rfl
  | succ depth ih =>
    intro bytes v rest h more
    rw [value?] at h ⊢
    split at h
    · cases h
    · next v rest atHead =>
      cases h
      rw [ignoresRest_head? atHead more]
    · next n between atHead =>
      rw [ignoresRest_head? atHead more]
      exact (ignoresRest_times? ih n).map Pack.array h more
    · next n between atHead =>
      rw [ignoresRest_head? atHead more]
      exact (ignoresRest_times? (ignoresRest_pair? ih) n).map Pack.map h more

end TopicMesh.Pack
