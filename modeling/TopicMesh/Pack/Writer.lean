import TopicMesh.Pack.Basic

/-!
# Writing MessagePack

Every value is written in its shortest form.  A head byte gives the kind and,
where there is room, the number or the length itself; otherwise the number or
length follows in one, two, four or eight bytes.
-/

namespace TopicMesh.Pack

/-- A natural number in its shortest form. -/
def writeNat (n : Nat) : Bytes :=
  if n < 0x80 then [UInt8.ofNat n]
  else if n < 0x100 then 0xCC :: bigEndian n 1
  else if n < 0x10000 then 0xCD :: bigEndian n 2
  else if n < 0x100000000 then 0xCE :: bigEndian n 4
  else 0xCF :: bigEndian n 8

/-- The number whose last `width` bytes in two's complement are those of `n`. -/
def twosComplement (n : Int) (width : Nat) : Bytes :=
  bigEndian (n % widthBound width).toNat width

/-- An integer in its shortest form. -/
def writeInt (n : Int) : Bytes :=
  if 0 ≤ n then writeNat n.toNat
  else if -32 ≤ n then twosComplement n 1
  else if -0x80 ≤ n then 0xD0 :: twosComplement n 1
  else if -0x8000 ≤ n then 0xD1 :: twosComplement n 2
  else if -0x80000000 ≤ n then 0xD2 :: twosComplement n 4
  else 0xD3 :: twosComplement n 8

/-- The head of a text of so many bytes. -/
def textHead (length : Nat) : Bytes :=
  if length < 32 then [UInt8.ofNat (0xA0 + length)]
  else if length < 0x100 then 0xD9 :: bigEndian length 1
  else if length < 0x10000 then 0xDA :: bigEndian length 2
  else 0xDB :: bigEndian length 4

/-- The head of an array of so many items. -/
def arrayHead (length : Nat) : Bytes :=
  if length < 16 then [UInt8.ofNat (0x90 + length)]
  else if length < 0x10000 then 0xDC :: bigEndian length 2
  else 0xDD :: bigEndian length 4

/-- The head of a map of so many entries. -/
def mapHead (length : Nat) : Bytes :=
  if length < 16 then [UInt8.ofNat (0x80 + length)]
  else if length < 0x10000 then 0xDE :: bigEndian length 2
  else 0xDF :: bigEndian length 4

/-- A text, given by its bytes. -/
def writeText (bytes : Bytes) : Bytes :=
  textHead bytes.length ++ bytes

/-- Data of an application's own type. -/
def writeExtension (kind : UInt8) (data : Bytes) : Bytes :=
  let head : Bytes := match data.length with
    | 1 => [0xD4]
    | 2 => [0xD5]
    | 4 => [0xD6]
    | 8 => [0xD7]
    | 16 => [0xD8]
    | n =>
      if n < 0x100 then 0xC7 :: bigEndian n 1
      else if n < 0x10000 then 0xC8 :: bigEndian n 2
      else 0xC9 :: bigEndian n 4
  head ++ kind :: data

mutual

/-- The bytes of a value. -/
def write : Pack → Bytes
  | nil => [0xC0]
  | bool b => [if b then 0xC3 else 0xC2]
  | unsigned n _ => writeNat n
  | signed n => writeInt n
  | float bits => (if bits.length = 4 then 0xCA else 0xCB) :: bits
  | blob bytes => writeText bytes
  | extension kind data => writeExtension kind data
  | array items => arrayHead items.length ++ writeItems items
  | map entries => mapHead entries.length ++ writeEntries entries

/-- The bytes of some values, one after the other. -/
def writeItems : List Pack → Bytes
  | [] => []
  | item :: rest => write item ++ writeItems rest

/-- The bytes of the entries of a map. -/
def writeEntries : List (Pack × Pack) → Bytes
  | [] => []
  | (key, value) :: rest => write key ++ write value ++ writeEntries rest

end

end TopicMesh.Pack
