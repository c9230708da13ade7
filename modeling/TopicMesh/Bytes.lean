/-!
# Byte strings and big-endian numbers

Everything that crosses a wire is a list of bytes.  Numbers travel **big-endian
in a fixed width**: `bigEndian n width` writes the last `width` base-256 digits
of `n`, `ofBigEndian` reads any number of digits.  A number that fits its width
reads back (`takeNumber_bigEndian`), and digits that were read are written
again (`bigEndian_ofBigEndian`), so width and value fix the bytes.

A reader takes something off the head of some bytes.  One that looks no further than
what it takes (`IgnoresRest`) tells bytes that are cut off from bytes that are not.
-/

namespace TopicMesh

/-- A byte string. -/
abbrev Bytes := List UInt8

/-- The number whose base-256 digits, highest first, are the bytes. -/
def ofBigEndian (bytes : Bytes) : Nat :=
  bytes.foldl (fun n b => n * 256 + b.toNat) 0

/-- The lowest `width` base-256 digits of a number, highest first. -/
def bigEndian (n : Nat) : (width : Nat) → Bytes
  | 0 => []
  | width + 1 => bigEndian (n / 256) width ++ [UInt8.ofNat n]

@[simp] theorem length_bigEndian (n width : Nat) : (bigEndian n width).length = width := by
  induction width generalizing n with
  | zero => rfl
  | succ w ih => simp [bigEndian, ih]

theorem ofBigEndian_append_singleton (bytes : Bytes) (b : UInt8) :
    ofBigEndian (bytes ++ [b]) = ofBigEndian bytes * 256 + b.toNat := by
  simp [ofBigEndian]

/-- How many numbers have at most `width` base-256 digits. -/
def widthBound (width : Nat) : Nat :=
  Nat.pow 256 width

theorem widthBound_succ (width : Nat) : widthBound (width + 1) = widthBound width * 256 :=
  rfl

/-- Of a number that is too great for its width the lowest digits read back. -/
theorem ofBigEndian_bigEndian_mod (n width : Nat) :
    ofBigEndian (bigEndian n width) = n % widthBound width := by
  induction width generalizing n with
  | zero =>
    show 0 = n % 1
    omega
  | succ w ih =>
    rw [bigEndian, ofBigEndian_append_singleton, ih, UInt8.toNat_ofNat', widthBound_succ,
      Nat.mul_comm (widthBound w), Nat.mod_mul]
    omega

theorem exists_append_singleton {bytes : Bytes} {n : Nat} (h : bytes.length = n + 1) :
    ∃ init b, bytes = init ++ [b] ∧ init.length = n := by
  refine ⟨bytes.dropLast, bytes.getLast (by intro e; simp [e] at h), ?_, by simp [h]⟩
  exact (List.dropLast_concat_getLast _).symm

theorem bigEndian_ofBigEndian (bytes : Bytes) :
    bigEndian (ofBigEndian bytes) bytes.length = bytes := by
  generalize hn : bytes.length = n
  induction n generalizing bytes with
  | zero => simp_all [bigEndian]
  | succ n ih =>
    obtain ⟨init, b, rfl, hlen⟩ := exists_append_singleton hn
    have hb : b.toNat < 256 := b.toNat_lt
    have hdiv : (ofBigEndian init * 256 + b.toNat) / 256 = ofBigEndian init := by omega
    have hbyte : UInt8.ofNat (ofBigEndian init * 256 + b.toNat) = b := by
      apply UInt8.toNat_inj.1
      rw [UInt8.toNat_ofNat']
      omega
    rw [bigEndian, ofBigEndian_append_singleton, hdiv, hbyte, ih init hlen]

/-- The first `n` bytes and the others, if there are so many. -/
def takeExactly (n : Nat) (bytes : Bytes) : Option (Bytes × Bytes) :=
  let front := bytes.take n
  if front.length = n then some (front, bytes.drop n) else none

theorem takeExactly_append (front rest : Bytes) :
    takeExactly front.length (front ++ rest) = some (front, rest) := by
  simp [takeExactly]

theorem takeExactly_eq_some_iff {n : Nat} {bytes front rest : Bytes} :
    takeExactly n bytes = some (front, rest) ↔ bytes = front ++ rest ∧ front.length = n := by
  constructor
  · intro h
    simp only [takeExactly, Option.ite_none_right_eq_some, Option.some.injEq, Prod.mk.injEq] at h
    obtain ⟨hlen, rfl, rfl⟩ := h
    exact ⟨(List.take_append_drop n bytes).symm, hlen⟩
  · rintro ⟨rfl, rfl⟩
    exact takeExactly_append front rest

theorem takeExactly_eq_none_iff {n : Nat} {bytes : Bytes} :
    takeExactly n bytes = none ↔ bytes.length < n := by
  simp only [takeExactly, List.length_take]
  split <;> simp <;> omega

/-- The number in the first `width` bytes and the bytes after it. -/
def takeNumber (width : Nat) (bytes : Bytes) : Option (Nat × Bytes) :=
  (takeExactly width bytes).map fun (front, rest) => (ofBigEndian front, rest)

theorem takeNumber_bigEndian_mod (n width : Nat) (rest : Bytes) :
    takeNumber width (bigEndian n width ++ rest) = some (n % widthBound width, rest) := by
  have := takeExactly_append (bigEndian n width) rest
  rw [length_bigEndian] at this
  simp [takeNumber, this, ofBigEndian_bigEndian_mod]

theorem takeNumber_bigEndian {n width : Nat} (h : n < widthBound width) (rest : Bytes) :
    takeNumber width (bigEndian n width ++ rest) = some (n, rest) := by
  rw [takeNumber_bigEndian_mod, Nat.mod_eq_of_lt h]

theorem ofBigEndian_lt (bytes : Bytes) : ofBigEndian bytes < widthBound bytes.length := by
  generalize hn : bytes.length = n
  induction n generalizing bytes with
  | zero =>
    rw [List.length_eq_zero_iff.1 hn]
    exact Nat.one_pos
  | succ n ih =>
    obtain ⟨init, b, rfl, hlen⟩ := exists_append_singleton hn
    have hb : b.toNat < 256 := b.toNat_lt
    have := ih init hlen
    rw [ofBigEndian_append_singleton, widthBound_succ]
    omega

theorem takeNumber_eq_some {width n : Nat} {bytes rest : Bytes}
    (h : takeNumber width bytes = some (n, rest)) :
    bytes = bigEndian n width ++ rest ∧ n < widthBound width := by
  obtain ⟨⟨front, rest'⟩, taken, same⟩ := Option.map_eq_some_iff.1 h
  obtain ⟨rfl, hlen⟩ := takeExactly_eq_some_iff.1 taken
  cases same
  rw [← hlen, bigEndian_ofBigEndian]
  exact ⟨rfl, ofBigEndian_lt front⟩

/-- Whether a reader looks no further than what it takes: more bytes behind what was
read are left over, and change nothing. -/
def IgnoresRest {α : Type} (read : Bytes → Option (α × Bytes)) : Prop :=
  ∀ ⦃bytes a rest⦄, read bytes = some (a, rest) →
    ∀ more, read (bytes ++ more) = some (a, rest ++ more)

theorem ignoresRest_takeExactly (n : Nat) : IgnoresRest (takeExactly n) := by
  intro bytes front rest h more
  obtain ⟨rfl, hlen⟩ := takeExactly_eq_some_iff.1 h
  exact takeExactly_eq_some_iff.2 ⟨List.append_assoc .., hlen⟩

theorem IgnoresRest.map {α β : Type} {read : Bytes → Option (α × Bytes)} (h : IgnoresRest read)
    (f : α → β) : IgnoresRest fun bytes => (read bytes).map fun (a, rest) => (f a, rest) := by
  intro bytes b rest read_b more
  obtain ⟨⟨a, rest'⟩, read_a, same⟩ := Option.map_eq_some_iff.1 read_b
  cases same
  exact Option.map_eq_some_iff.2 ⟨_, h read_a more, rfl⟩

theorem IgnoresRest.bind {α β : Type} {read : Bytes → Option (α × Bytes)} (h : IgnoresRest read)
    {next : α → Bytes → Option (β × Bytes)} (goesOn : ∀ a, IgnoresRest (next a)) :
    IgnoresRest fun bytes => (read bytes).bind fun (a, rest) => next a rest := by
  intro bytes b rest read_b more
  obtain ⟨⟨a, between⟩, read_a, read_next⟩ := Option.bind_eq_some_iff.1 read_b
  exact Option.bind_eq_some_iff.2 ⟨_, h read_a more, goesOn a read_next more⟩

/-- **Of bytes that a reader takes to the last one no proper beginning can be read.** -/
theorem IgnoresRest.cut_short {α : Type} {read : Bytes → Option (α × Bytes)} (h : IgnoresRest read)
    {bytes part : Bytes} {a : α} (whole : read bytes = some (a, [])) (begins : part <+: bytes)
    (short : part ≠ bytes) : read part = none := by
  obtain ⟨missing, rfl⟩ := begins
  cases found : read part with
  | none => rfl
  | some result =>
    -- what is missing would be left over
    have same := h found missing
    rw [whole] at same
    have left : result.2 ++ missing = [] := (Prod.mk.inj (Option.some.inj same)).2.symm
    obtain ⟨-, rfl⟩ := List.append_eq_nil_iff.1 left
    exact absurd (List.append_nil part).symm short

theorem ignoresRest_takeNumber (width : Nat) : IgnoresRest (takeNumber width) :=
  (ignoresRest_takeExactly width).map ofBigEndian

end TopicMesh
