import TopicMesh.Bytes

/-!
# UTF-8

`encode` writes a text as bytes.  `decode` reads bytes back, or says **where and
how** they stop being UTF-8:

* `invalid index length`: at `index` stand `length` bytes (one to three) that
  begin a character but cannot go on with the byte after them, or one byte that
  begins none;
* `incomplete index`: the bytes end inside the character that began at `index`.

Reading is a walk over the bytes with a small state.  Between characters a byte
is a character of its own or the head of a longer one; inside a character
(`Partial`) the next byte has to lie in a known range.  The range of the second
byte depends on the head, and that is what keeps out surrogates, values above
U+10FFFF and forms longer than needed.
-/

namespace TopicMesh.Utf8

/-- The bytes of one character: one byte below U+0080, two below U+0800, three
below U+10000 and four above. -/
def encodeChar (c : Char) : Bytes :=
  let n := c.toNat
  if n < 0x80 then [UInt8.ofNat n]
  else if n < 0x800 then [UInt8.ofNat (0xC0 + n / 64), UInt8.ofNat (0x80 + n % 64)]
  else if n < 0x10000 then
    [UInt8.ofNat (0xE0 + n / 4096), UInt8.ofNat (0x80 + n / 64 % 64), UInt8.ofNat (0x80 + n % 64)]
  else
    [UInt8.ofNat (0xF0 + n / 262144), UInt8.ofNat (0x80 + n / 4096 % 64),
      UInt8.ofNat (0x80 + n / 64 % 64), UInt8.ofNat (0x80 + n % 64)]

/-- The bytes of a text. -/
def encode (s : String) : Bytes :=
  s.toList.flatMap encodeChar

/-- How bytes fail to be UTF-8. -/
inductive Fault
  | invalid (index length : Nat)
  | incomplete (index : Nat)
deriving DecidableEq, Repr

/-- The wording of a fault. -/
def Fault.message : Fault → String
  | .invalid index length => s!"invalid utf-8 sequence of {length} bytes from index {index}"
  | .incomplete index => s!"incomplete utf-8 byte sequence from index {index}"

/-- A character of which some bytes are read. -/
structure Partial where
  /-- The bytes read. -/
  got : Nat
  /-- The bytes still to come, less one. -/
  more : Nat
  /-- The bits read. -/
  value : Nat
  /-- The least byte that may come next. -/
  low : Nat
  /-- The greatest byte that may come next. -/
  high : Nat

/-- The character that a head byte of a longer form begins. -/
def Partial.ofHead? (b : Nat) : Option Partial :=
  if 0xC2 ≤ b ∧ b ≤ 0xDF then some ⟨1, 0, b - 0xC0, 0x80, 0xBF⟩
  else if b = 0xE0 then some ⟨1, 1, 0, 0xA0, 0xBF⟩
  else if b = 0xED then some ⟨1, 1, 0xD, 0x80, 0x9F⟩
  else if 0xE1 ≤ b ∧ b ≤ 0xEF then some ⟨1, 1, b - 0xE0, 0x80, 0xBF⟩
  else if b = 0xF0 then some ⟨1, 2, 0, 0x90, 0xBF⟩
  else if b = 0xF4 then some ⟨1, 2, 4, 0x80, 0x8F⟩
  else if 0xF1 ≤ b ∧ b ≤ 0xF3 then some ⟨1, 2, b - 0xF0, 0x80, 0xBF⟩
  else none

/-- Reads bytes after the characters in `read` (last first), of which `index`
bytes are done, and after the bytes of an unfinished character. -/
def decodeFrom (index : Nat) (read : List Char) : Option Partial → Bytes → Except Fault (List Char)
  | none, [] => .ok read.reverse
  | some _, [] => .error (.incomplete index)
  | none, b :: rest =>
    if b.toNat < 0x80 then decodeFrom (index + 1) (Char.ofNat b.toNat :: read) none rest
    else
      match Partial.ofHead? b.toNat with
      | some p => decodeFrom index read (some p) rest
      | none => .error (.invalid index 1)
  | some p, b :: rest =>
    if p.low ≤ b.toNat ∧ b.toNat ≤ p.high then
      let value := p.value * 64 + (b.toNat - 0x80)
      match p.more with
      | 0 => decodeFrom (index + p.got + 1) (Char.ofNat value :: read) none rest
      | more + 1 => decodeFrom index read (some ⟨p.got + 1, more, value, 0x80, 0xBF⟩) rest
    else .error (.invalid index p.got)

/-- The text that some bytes encode. -/
def decode (bytes : Bytes) : Except Fault String :=
  (decodeFrom 0 [] none bytes).map String.ofList

end TopicMesh.Utf8
