import TopicMesh.Text.Utf8

/-!
# UTF-8 reads back

Reading the bytes of a character gives the character and goes on behind them
(`decodeFrom_encodeChar`), so the bytes of a text read back to the text
(`decode_encode`) and no two texts have the same bytes (`encode_injective`).  Nothing else
is read: each character that is read was written as its bytes (`exists_encodeChar`), so a
text has one form only (`encode_of_decode`).  The bytes of texts are in the order of the
texts (`encode_lt`).
-/

namespace TopicMesh.Utf8

theorem toNat_ofNat_of_lt {n : Nat} (h : n < 256) : (UInt8.ofNat n).toNat = n := by
  rw [UInt8.toNat_ofNat', Nat.mod_eq_of_lt h]

/-! ## The heads of longer forms -/

theorem ofHead?_two {b : Nat} (low : 0xC2 ≤ b) (high : b ≤ 0xDF) :
    Partial.ofHead? b = some ⟨1, 0, b - 0xC0, 0x80, 0xBF⟩ :=
  if_pos ⟨low, high⟩

theorem ofHead?_three {b : Nat} (low : 0xE0 ≤ b) (high : b ≤ 0xEF) :
    Partial.ofHead? b = some ⟨1, 1, b - 0xE0, if b = 0xE0 then 0xA0 else 0x80,
      if b = 0xED then 0x9F else 0xBF⟩ := by
  unfold Partial.ofHead?
  rw [if_neg (by omega)]
  by_cases first : b = 0xE0
  · subst first; rfl
  by_cases surrogates : b = 0xED
  · subst surrogates; rfl
  rw [if_neg first, if_neg surrogates, if_pos (by omega), if_neg first, if_neg surrogates]

theorem ofHead?_four {b : Nat} (low : 0xF0 ≤ b) (high : b ≤ 0xF4) :
    Partial.ofHead? b = some ⟨1, 2, b - 0xF0, if b = 0xF0 then 0x90 else 0x80,
      if b = 0xF4 then 0x8F else 0xBF⟩ := by
  unfold Partial.ofHead?
  rw [if_neg (by omega), if_neg (by omega), if_neg (by omega), if_neg (by omega)]
  by_cases first : b = 0xF0
  · subst first; rfl
  by_cases last : b = 0xF4
  · subst last; rfl
  rw [if_neg first, if_neg last, if_pos (by omega), if_neg first, if_neg last]

/-! ## One byte -/

section

variable {index : Nat} {read : List Char} {rest : Bytes}

theorem decodeFrom_ascii {n : Nat} (h : n < 0x80) :
    decodeFrom index read none (UInt8.ofNat n :: rest) =
      decodeFrom (index + 1) (Char.ofNat n :: read) none rest := by
  rw [decodeFrom, toNat_ofNat_of_lt (by omega), if_pos h]

theorem decodeFrom_head {n : Nat} {p : Partial} (h : n < 256) (head : Partial.ofHead? n = some p) :
    decodeFrom index read none (UInt8.ofNat n :: rest) = decodeFrom index read (some p) rest := by
  have high : ¬n < 0x80 := by
    intro low
    have : Partial.ofHead? n = none := by
      unfold Partial.ofHead?
      rw [if_neg (by omega), if_neg (by omega), if_neg (by omega), if_neg (by omega),
        if_neg (by omega), if_neg (by omega), if_neg (by omega)]
    rw [this] at head
    cases head
  rw [decodeFrom, toNat_ofNat_of_lt h, if_neg high, head]

theorem decodeFrom_last {got value low high n : Nat} (h : n < 64) (min : low ≤ 0x80 + n)
    (max : 0x80 + n ≤ high) :
    decodeFrom index read (some ⟨got, 0, value, low, high⟩) (UInt8.ofNat (0x80 + n) :: rest) =
      decodeFrom (index + got + 1) (Char.ofNat (value * 64 + n) :: read) none rest := by
  rw [decodeFrom, toNat_ofNat_of_lt (by omega), if_pos ⟨min, max⟩, Nat.add_sub_cancel_left]

theorem decodeFrom_inner {got more value low high n : Nat} (h : n < 64) (min : low ≤ 0x80 + n)
    (max : 0x80 + n ≤ high) :
    decodeFrom index read (some ⟨got, more + 1, value, low, high⟩)
        (UInt8.ofNat (0x80 + n) :: rest) =
      decodeFrom index read (some ⟨got + 1, more, value * 64 + n, 0x80, 0xBF⟩) rest := by
  rw [decodeFrom, toNat_ofNat_of_lt (by omega), if_pos ⟨min, max⟩, Nat.add_sub_cancel_left]

end

/-! ## Characters and texts -/

/-- A character is below the surrogates or above them. -/
theorem toNat_valid (c : Char) :
    c.toNat < 0xD800 ∨ 0xDFFF < c.toNat ∧ c.toNat < 0x110000 :=
  c.valid

theorem decodeFrom_encodeChar (c : Char) (index : Nat) (read : List Char) (rest : Bytes) :
    decodeFrom index read none (encodeChar c ++ rest) =
      decodeFrom (index + (encodeChar c).length) (c :: read) none rest := by
  have valid := toNat_valid c
  have back : Char.ofNat c.toNat = c := Char.ofNat_toNat c
  unfold encodeChar
  dsimp only
  generalize c.toNat = n at valid back
  by_cases one : n < 0x80
  · rw [if_pos one, ← back]
    exact decodeFrom_ascii one
  rw [if_neg one]
  by_cases two : n < 0x800
  · rw [if_pos two]
    show decodeFrom index read none (_ :: _ :: rest) = _
    rw [decodeFrom_head (by omega) (ofHead?_two (by omega) (by omega)),
      decodeFrom_last (by omega) (by omega) (by omega),
      show (0xC0 + n / 64 - 0xC0) * 64 + n % 64 = n by omega, back]
    rfl
  rw [if_neg two]
  by_cases three : n < 0x10000
  · rw [if_pos three]
    show decodeFrom index read none (_ :: _ :: _ :: rest) = _
    -- below the first head's range the form is too long, and surrogates are no characters
    rw [decodeFrom_head (by omega) (ofHead?_three (by omega) (by omega)),
      decodeFrom_inner (by omega) (by split <;> omega) (by split <;> omega),
      decodeFrom_last (by omega) (by omega) (by omega),
      show ((0xE0 + n / 4096 - 0xE0) * 64 + n / 64 % 64) * 64 + n % 64 = n by omega, back]
    rfl
  · rw [if_neg three]
    show decodeFrom index read none (_ :: _ :: _ :: _ :: rest) = _
    rw [decodeFrom_head (by omega) (ofHead?_four (by omega) (by omega)),
      decodeFrom_inner (by omega) (by split <;> omega) (by split <;> omega),
      decodeFrom_inner (by omega) (by omega) (by omega),
      decodeFrom_last (by omega) (by omega) (by omega),
      show (((0xF0 + n / 262144 - 0xF0) * 64 + n / 4096 % 64) * 64 + n / 64 % 64) * 64 + n % 64 = n
        by omega, back]
    rfl

theorem decodeFrom_flatMap (cs : List Char) (index : Nat) (read : List Char) :
    decodeFrom index read none (cs.flatMap encodeChar) = .ok (read.reverse ++ cs) := by
  induction cs generalizing index read with
  | nil => rw [List.append_nil]; rfl
  | cons c cs ih =>
    rw [List.flatMap_cons, decodeFrom_encodeChar, ih, List.reverse_cons, List.append_assoc]
    rfl

/-- **The bytes of a text read back to the text.** -/
@[simp] theorem decode_encode (s : String) : decode (encode s) = .ok s := by
  unfold decode encode
  rw [decodeFrom_flatMap]
  show Except.ok (String.ofList s.toList) = _
  rw [String.ofList_toList]

theorem encode_injective {s t : String} (h : encode s = encode t) : s = t := by
  have := congrArg decode h
  rw [decode_encode, decode_encode] at this
  exact Except.ok.inj this

theorem encodeChar_ne_nil (c : Char) : encodeChar c ≠ [] := by
  unfold encodeChar
  dsimp only
  split
  · simp
  · split
    · simp
    · split <;> simp

/-! ## Only texts are read -/

/-- The character with a number, unless that is the number of none. -/
theorem exists_toNat_eq {n : Nat} (valid : n.isValidChar) : ∃ c : Char, c.toNat = n := by
  refine ⟨Char.ofNat n, ?_⟩
  unfold Char.ofNat
  rw [dif_pos valid]
  rfl

section

variable {n n₁ n₂ n₃ : Nat}

theorem exists_char_one (h : n < 0x80) : ∃ c, encodeChar c = [UInt8.ofNat n] := by
  obtain ⟨c, same⟩ := exists_toNat_eq (n := n) (.inl (by omega))
  refine ⟨c, ?_⟩
  unfold encodeChar
  rw [same, if_pos h]

theorem exists_char_two (low : 2 ≤ n) (high : n < 0x20) (h₁ : n₁ < 64) :
    ∃ c, encodeChar c = [UInt8.ofNat (0xC0 + n), UInt8.ofNat (0x80 + n₁)] := by
  obtain ⟨c, same⟩ := exists_toNat_eq (n := n * 64 + n₁) (.inl (by omega))
  refine ⟨c, ?_⟩
  unfold encodeChar
  dsimp only
  rw [same, if_neg (by omega), if_pos (by omega), show (n * 64 + n₁) / 64 = n by omega,
    show (n * 64 + n₁) % 64 = n₁ by omega]

/-- The range of the second byte keeps out surrogates and forms that are too long. -/
theorem exists_char_three (high : n < 0x10) (h₁ : n₁ < 64) (h₂ : n₂ < 64)
    (min : (if n = 0 then 0xA0 else 0x80) ≤ 0x80 + n₁)
    (max : 0x80 + n₁ ≤ if n = 0xD then 0x9F else 0xBF) :
    ∃ c, encodeChar c =
      [UInt8.ofNat (0xE0 + n), UInt8.ofNat (0x80 + n₁), UInt8.ofNat (0x80 + n₂)] := by
  have wide : 0x800 ≤ (n * 64 + n₁) * 64 + n₂ := by
    split at min <;> omega
  have valid : ((n * 64 + n₁) * 64 + n₂).isValidChar := by
    by_cases below : (n * 64 + n₁) * 64 + n₂ < 0xD800
    · exact .inl below
    · refine .inr ⟨?_, by omega⟩
      split at max <;> omega
  obtain ⟨c, same⟩ := exists_toNat_eq valid
  refine ⟨c, ?_⟩
  unfold encodeChar
  dsimp only
  rw [same, if_neg (by omega), if_neg (by omega), if_pos (by omega),
    show ((n * 64 + n₁) * 64 + n₂) / 4096 = n by omega,
    show ((n * 64 + n₁) * 64 + n₂) / 64 % 64 = n₁ by omega,
    show ((n * 64 + n₁) * 64 + n₂) % 64 = n₂ by omega]

/-- The range of the second byte keeps out forms that are too long and numbers that are too
great. -/
theorem exists_char_four (high : n < 5) (h₁ : n₁ < 64) (h₂ : n₂ < 64) (h₃ : n₃ < 64)
    (min : (if n = 0 then 0x90 else 0x80) ≤ 0x80 + n₁)
    (max : 0x80 + n₁ ≤ if n = 4 then 0x8F else 0xBF) :
    ∃ c, encodeChar c = [UInt8.ofNat (0xF0 + n), UInt8.ofNat (0x80 + n₁),
      UInt8.ofNat (0x80 + n₂), UInt8.ofNat (0x80 + n₃)] := by
  have wide : 0x10000 ≤ ((n * 64 + n₁) * 64 + n₂) * 64 + n₃ := by
    split at min <;> omega
  have small : ((n * 64 + n₁) * 64 + n₂) * 64 + n₃ < 0x110000 := by
    split at max <;> omega
  obtain ⟨c, same⟩ := exists_toNat_eq (.inr ⟨by omega, small⟩)
  refine ⟨c, ?_⟩
  unfold encodeChar
  dsimp only
  rw [same, if_neg (by omega), if_neg (by omega), if_neg (by omega),
    show (((n * 64 + n₁) * 64 + n₂) * 64 + n₃) / 262144 = n by omega,
    show (((n * 64 + n₁) * 64 + n₂) * 64 + n₃) / 4096 % 64 = n₁ by omega,
    show (((n * 64 + n₁) * 64 + n₂) * 64 + n₃) / 64 % 64 = n₂ by omega,
    show (((n * 64 + n₁) * 64 + n₂) * 64 + n₃) % 64 = n₃ by omega]

end

/-- The head bytes of longer forms, by the number of bytes that follow. -/
theorem ofHead?_eq_some {b : Nat} {p : Partial} (head : Partial.ofHead? b = some p) :
    (∃ n, b = 0xC0 + n ∧ 2 ≤ n ∧ n < 0x20 ∧ p = ⟨1, 0, n, 0x80, 0xBF⟩) ∨
      (∃ n, b = 0xE0 + n ∧ n < 0x10 ∧
        p = ⟨1, 1, n, if n = 0 then 0xA0 else 0x80, if n = 0xD then 0x9F else 0xBF⟩) ∨
      ∃ n, b = 0xF0 + n ∧ n < 5 ∧
        p = ⟨1, 2, n, if n = 0 then 0x90 else 0x80, if n = 4 then 0x8F else 0xBF⟩ := by
  unfold Partial.ofHead? at head
  split at head
  · cases head
    exact .inl ⟨b - 0xC0, by omega, by omega, by omega, rfl⟩
  split at head
  · cases head
    exact .inr (.inl ⟨0, by omega, by omega, rfl⟩)
  split at head
  · cases head
    exact .inr (.inl ⟨0xD, by omega, by omega, rfl⟩)
  split at head
  · cases head
    refine .inr (.inl ⟨b - 0xE0, by omega, by omega, ?_⟩)
    rw [if_neg (by omega), if_neg (by omega)]
  split at head
  · cases head
    exact .inr (.inr ⟨0, by omega, by omega, rfl⟩)
  split at head
  · cases head
    exact .inr (.inr ⟨4, by omega, by omega, rfl⟩)
  split at head
  · cases head
    refine .inr (.inr ⟨b - 0xF0, by omega, by omega, ?_⟩)
    rw [if_neg (by omega), if_neg (by omega)]
  · cases head

section

variable {index : Nat} {read cs : List Char} {bytes : Bytes}

/-- Inside a character a byte in the known range comes next. -/
theorem exists_byte_inside {p : Partial} (low : 0x80 ≤ p.low) (high : p.high ≤ 0xBF)
    (ok : decodeFrom index read (some p) bytes = .ok cs) :
    ∃ n rest, bytes = UInt8.ofNat (0x80 + n) :: rest ∧ n < 64 ∧ p.low ≤ 0x80 + n ∧
      0x80 + n ≤ p.high := by
  cases bytes with
  | nil => cases ok
  | cons b rest =>
    rw [decodeFrom] at ok
    split at ok
    · next within =>
      have same : 0x80 + (b.toNat - 0x80) = b.toNat := by omega
      refine ⟨b.toNat - 0x80, rest, ?_, by omega, by omega, by omega⟩
      rw [same, UInt8.ofNat_toNat]
    · cases ok

/-- **Bytes that are read begin with those of a character.** -/
theorem exists_encodeChar {b : UInt8} (ok : decodeFrom index read none (b :: bytes) = .ok cs) :
    ∃ c rest, b :: bytes = encodeChar c ++ rest := by
  have is_byte : UInt8.ofNat b.toNat = b := UInt8.ofNat_toNat
  by_cases ascii : b.toNat < 0x80
  · obtain ⟨c, written⟩ := exists_char_one ascii
    exact ⟨c, bytes, by rw [written, is_byte]; rfl⟩
  rw [decodeFrom, if_neg ascii] at ok
  cases head : Partial.ofHead? b.toNat with
  | none =>
    rw [head] at ok
    cases ok
  | some p =>
    rw [head] at ok
    dsimp only at ok
    obtain ⟨n, hb, low, high, rfl⟩ | ⟨n, hb, high, rfl⟩ | ⟨n, hb, high, rfl⟩ := ofHead?_eq_some head
    · obtain ⟨n₁, rest, rfl, h₁, -, -⟩ := exists_byte_inside (by simp) (by simp) ok
      obtain ⟨c, written⟩ := exists_char_two low high h₁
      exact ⟨c, rest, by rw [written, ← hb, is_byte]; rfl⟩
    · obtain ⟨n₁, rest₁, rfl, h₁, min, max⟩ :=
        exists_byte_inside (by dsimp only; split <;> omega) (by dsimp only; split <;> omega) ok
      dsimp only at min max
      rw [decodeFrom_inner h₁ min max] at ok
      obtain ⟨n₂, rest, rfl, h₂, -, -⟩ := exists_byte_inside (by simp) (by simp) ok
      obtain ⟨c, written⟩ := exists_char_three high h₁ h₂ min max
      exact ⟨c, rest, by rw [written, ← hb, is_byte]; rfl⟩
    · obtain ⟨n₁, rest₁, rfl, h₁, min, max⟩ :=
        exists_byte_inside (by dsimp only; split <;> omega) (by dsimp only; split <;> omega) ok
      dsimp only at min max
      rw [decodeFrom_inner h₁ min max] at ok
      obtain ⟨n₂, rest₂, rfl, h₂, min₂, max₂⟩ := exists_byte_inside (by simp) (by simp) ok
      rw [decodeFrom_inner h₂ min₂ max₂] at ok
      obtain ⟨n₃, rest, rfl, h₃, -, -⟩ := exists_byte_inside (by simp) (by simp) ok
      obtain ⟨c, written⟩ := exists_char_four high h₁ h₂ h₃ min max
      exact ⟨c, rest, by rw [written, ← hb, is_byte]; rfl⟩

end

/-- What is read are the characters before and those that the bytes are written of. -/
theorem exists_flatMap_encodeChar (n : Nat) {index : Nat} {read cs : List Char} {bytes : Bytes}
    (short : bytes.length < n) (ok : decodeFrom index read none bytes = .ok cs) :
    ∃ more, cs = read.reverse ++ more ∧ more.flatMap encodeChar = bytes := by
  induction n generalizing index read bytes with
  | zero => exact absurd short (Nat.not_lt_zero _)
  | succ n ih =>
    cases bytes with
    | nil =>
      cases ok
      exact ⟨[], (List.append_nil _).symm, rfl⟩
    | cons b bytes =>
      obtain ⟨c, rest, begins⟩ := exists_encodeChar ok
      have shorter : rest.length < n := by
        have lengths := congrArg List.length begins
        have some_bytes := List.length_pos_iff.2 (encodeChar_ne_nil c)
        rw [List.length_append] at lengths
        omega
      rw [begins, decodeFrom_encodeChar] at ok
      obtain ⟨more, rfl, written⟩ := ih shorter ok
      refine ⟨c :: more, by rw [List.reverse_cons, List.append_assoc]; rfl, ?_⟩
      rw [List.flatMap_cons, written, begins]

/-- **Bytes that read back to a text are the bytes of that text.** -/
theorem encode_of_decode {bytes : Bytes} {s : String} (ok : decode bytes = .ok s) :
    encode s = bytes := by
  unfold decode at ok
  cases run : decodeFrom 0 [] none bytes with
  | error fault =>
    rw [run] at ok
    cases ok
  | ok cs =>
    rw [run] at ok
    cases ok
    obtain ⟨more, same, written⟩ := exists_flatMap_encodeChar _ (Nat.lt_succ_self _) run
    rw [List.reverse_nil, List.nil_append] at same
    unfold encode
    rw [String.toList_ofList, same, written]

/-! ## The order of texts is that of their bytes -/

/-- Bytes that begin with a smaller one, or with the same one before smaller bytes. -/
theorem ofNat_cons_lt {a b : Nat} {x y : Bytes} (ha : a < 256) (hb : b < 256)
    (h : a < b ∨ a = b ∧ x < y) : UInt8.ofNat a :: x < UInt8.ofNat b :: y := by
  rw [List.cons_lt_cons_iff, UInt8.lt_iff_toNat_lt, ← UInt8.toNat_inj, toNat_ofNat_of_lt ha,
    toNat_ofNat_of_lt hb]
  exact h

section

variable {m n : Nat} (lt : m < n) (x y : Bytes)
include lt

theorem last_lt (same : m / 64 = n / 64) :
    UInt8.ofNat (0x80 + m % 64) :: x < UInt8.ofNat (0x80 + n % 64) :: y :=
  ofNat_cons_lt (by omega) (by omega) (.inl (by omega))

theorem last_two_lt (same : m / 4096 = n / 4096) :
    UInt8.ofNat (0x80 + m / 64 % 64) :: UInt8.ofNat (0x80 + m % 64) :: x <
      UInt8.ofNat (0x80 + n / 64 % 64) :: UInt8.ofNat (0x80 + n % 64) :: y := by
  refine ofNat_cons_lt (by omega) (by omega) ?_
  by_cases second : m / 64 = n / 64
  · exact .inr ⟨by omega, last_lt lt x y second⟩
  · exact .inl (by omega)

theorem last_three_lt (same : m / 262144 = n / 262144) :
    UInt8.ofNat (0x80 + m / 4096 % 64) :: UInt8.ofNat (0x80 + m / 64 % 64) ::
        UInt8.ofNat (0x80 + m % 64) :: x <
      UInt8.ofNat (0x80 + n / 4096 % 64) :: UInt8.ofNat (0x80 + n / 64 % 64) ::
        UInt8.ofNat (0x80 + n % 64) :: y := by
  refine ofNat_cons_lt (by omega) (by omega) ?_
  by_cases third : m / 4096 = n / 4096
  · exact .inr ⟨by omega, last_two_lt lt x y third⟩
  · exact .inl (by omega)

end

/-- The bytes of a smaller character come first, whatever follows. -/
theorem encodeChar_append_lt {c d : Char} (h : c < d) (x y : Bytes) :
    encodeChar c ++ x < encodeChar d ++ y := by
  have lt : c.toNat < d.toNat := h
  have bound : d.toNat < 0x110000 := by
    rcases toNat_valid d with low | high
    · omega
    · exact high.2
  unfold encodeChar
  dsimp only
  generalize c.toNat = m at lt
  generalize d.toNat = n at lt bound
  -- the first byte decides, unless both characters take the same form with the same one
  by_cases one : n < 0x80
  · rw [if_pos one, if_pos (by omega)]
    exact ofNat_cons_lt (by omega) (by omega) (.inl lt)
  rw [if_neg one]
  by_cases ascii : m < 0x80
  · rw [if_pos ascii]
    split
    · exact ofNat_cons_lt (by omega) (by omega) (.inl (by omega))
    · split <;> exact ofNat_cons_lt (by omega) (by omega) (.inl (by omega))
  rw [if_neg ascii]
  by_cases two : n < 0x800
  · rw [if_pos two, if_pos (by omega)]
    refine ofNat_cons_lt (by omega) (by omega) ?_
    by_cases head : m / 64 = n / 64
    · exact .inr ⟨by omega, last_lt lt x y head⟩
    · exact .inl (by omega)
  rw [if_neg two]
  by_cases short : m < 0x800
  · rw [if_pos short]
    split <;> exact ofNat_cons_lt (by omega) (by omega) (.inl (by omega))
  rw [if_neg short]
  by_cases three : n < 0x10000
  · rw [if_pos three, if_pos (by omega)]
    refine ofNat_cons_lt (by omega) (by omega) ?_
    by_cases head : m / 4096 = n / 4096
    · exact .inr ⟨by omega, last_two_lt lt x y head⟩
    · exact .inl (by omega)
  rw [if_neg three]
  by_cases shorter : m < 0x10000
  · rw [if_pos shorter]
    exact ofNat_cons_lt (by omega) (by omega) (.inl (by omega))
  · rw [if_neg shorter]
    refine ofNat_cons_lt (by omega) (by omega) ?_
    by_cases head : m / 262144 = n / 262144
    · exact .inr ⟨by omega, last_three_lt lt x y head⟩
    · exact .inl (by omega)

theorem flatMap_encodeChar_lt {cs ds : List Char} (h : cs < ds) :
    cs.flatMap encodeChar < ds.flatMap encodeChar := by
  induction h with
  | nil =>
    rename_i d ds
    rw [List.flatMap_cons]
    cases h : encodeChar d with
    | nil => exact absurd h (encodeChar_ne_nil d)
    | cons => exact List.Lex.nil
  | cons _ ih =>
    rename_i d cs ds _
    rw [List.flatMap_cons, List.flatMap_cons]
    exact List.append_left_lt ih
  | rel h => exact encodeChar_append_lt h _ _

/-- **Texts are in the order of their bytes.** -/
theorem encode_lt {s t : String} (h : s < t) : encode s < encode t :=
  flatMap_encodeChar_lt (String.lt_iff.1 h)

end TopicMesh.Utf8
