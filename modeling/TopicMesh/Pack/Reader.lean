import TopicMesh.Pack.Basic

/-!
# Reading MessagePack

`value?` takes one value off some bytes, in whichever form it is written; bytes
after the value are left over.  Reading fails where the bytes end too early, at
the one head byte that means nothing, and where arrays, maps and extensions are
nested deeper than allowed.
-/

namespace TopicMesh.Pack

/-- What a head byte, with the length behind it, announces. -/
inductive Head
  /-- A value that is read already. -/
  | whole (v : Pack)
  /-- So many items. -/
  | items (n : Nat)
  /-- So many entries. -/
  | entries (n : Nat)

/-- The number that some bytes write in two's complement. -/
def ofTwosComplement (n width : Nat) : Int :=
  if n < widthBound width / 2 then n else (n : Int) - widthBound width

/-- A number in an unsigned form. -/
def unsigned? (width : Nat) (bytes : Bytes) : Option (Head × Bytes) :=
  (takeNumber width bytes).map fun (n, rest) => (.whole (.unsigned n width), rest)

/-- A number in a signed form. -/
def signed? (width : Nat) (bytes : Bytes) : Option (Head × Bytes) :=
  (takeNumber width bytes).map fun (n, rest) => (.whole (.signed (ofTwosComplement n width)), rest)

/-- A text or byte string of a known length. -/
def blob? (length : Nat) (bytes : Bytes) : Option (Head × Bytes) :=
  (takeExactly length bytes).map fun (data, rest) => (.whole (.blob data), rest)

/-- A text or byte string behind its length. -/
def sizedBlob? (width : Nat) (bytes : Bytes) : Option (Head × Bytes) :=
  (takeNumber width bytes).bind fun (n, rest) => blob? n rest

/-- A floating-point number. -/
def float? (width : Nat) (bytes : Bytes) : Option (Head × Bytes) :=
  (takeExactly width bytes).map fun (bits, rest) => (.whole (.float bits), rest)

/-- Data of an application's own type, of a known length. -/
def extension? (length : Nat) : Bytes → Option (Head × Bytes)
  | [] => none
  | kind :: bytes =>
    (takeExactly length bytes).map fun (data, rest) => (.whole (.extension kind data), rest)

/-- Data of an application's own type, behind its length. -/
def sizedExtension? (width : Nat) (bytes : Bytes) : Option (Head × Bytes) :=
  (takeNumber width bytes).bind fun (n, rest) => extension? n rest

/-- An array behind its length. -/
def sizedItems? (width : Nat) (bytes : Bytes) : Option (Head × Bytes) :=
  (takeNumber width bytes).map fun (n, rest) => (.items n, rest)

/-- A map behind its length. -/
def sizedEntries? (width : Nat) (bytes : Bytes) : Option (Head × Bytes) :=
  (takeNumber width bytes).map fun (n, rest) => (.entries n, rest)

/-- Reads as far as the head byte tells. -/
def head? : Bytes → Option (Head × Bytes)
  | [] => none
  | b :: bytes =>
    let n := b.toNat
    if n < 0x80 then some (.whole (.unsigned n 0), bytes)
    else if n < 0x90 then some (.entries (n - 0x80), bytes)
    else if n < 0xA0 then some (.items (n - 0x90), bytes)
    else if n < 0xC0 then blob? (n - 0xA0) bytes
    else if 0xE0 ≤ n then some (.whole (.signed ((n : Int) - 256)), bytes)
    else
      match n with
      | 0xC0 => some (.whole .nil, bytes)
      | 0xC2 => some (.whole (.bool false), bytes)
      | 0xC3 => some (.whole (.bool true), bytes)
      | 0xC4 => sizedBlob? 1 bytes
      | 0xC5 => sizedBlob? 2 bytes
      | 0xC6 => sizedBlob? 4 bytes
      | 0xC7 => sizedExtension? 1 bytes
      | 0xC8 => sizedExtension? 2 bytes
      | 0xC9 => sizedExtension? 4 bytes
      | 0xCA => float? 4 bytes
      | 0xCB => float? 8 bytes
      | 0xCC => unsigned? 1 bytes
      | 0xCD => unsigned? 2 bytes
      | 0xCE => unsigned? 4 bytes
      | 0xCF => unsigned? 8 bytes
      | 0xD0 => signed? 1 bytes
      | 0xD1 => signed? 2 bytes
      | 0xD2 => signed? 4 bytes
      | 0xD3 => signed? 8 bytes
      | 0xD4 => extension? 1 bytes
      | 0xD5 => extension? 2 bytes
      | 0xD6 => extension? 4 bytes
      | 0xD7 => extension? 8 bytes
      | 0xD8 => extension? 16 bytes
      | 0xD9 => sizedBlob? 1 bytes
      | 0xDA => sizedBlob? 2 bytes
      | 0xDB => sizedBlob? 4 bytes
      | 0xDC => sizedItems? 2 bytes
      | 0xDD => sizedItems? 4 bytes
      | 0xDE => sizedEntries? 2 bytes
      | 0xDF => sizedEntries? 4 bytes
      | _ => none

/-- Reads so many things one after the other. -/
def times? {α : Type} (read : Bytes → Option (α × Bytes)) : Nat → Bytes → Option (List α × Bytes)
  | 0, bytes => some ([], bytes)
  | n + 1, bytes =>
    match read bytes with
    | none => none
    | some (a, rest) => (times? read n rest).map fun (as, rest) => (a :: as, rest)

/-- Reads two values. -/
def pair? (read : Bytes → Option (Pack × Bytes)) (bytes : Bytes) :
    Option ((Pack × Pack) × Bytes) :=
  match read bytes with
  | none => none
  | some (key, rest) => (read rest).map fun (value, rest) => ((key, value), rest)

/-- Reads a value whose arrays, maps and extensions are nested at most `depth`
deep. -/
def value? : (depth : Nat) → Bytes → Option (Pack × Bytes)
  | 0, bytes =>
    match head? bytes with
    | some (.whole (.extension ..), _) => none
    | some (.whole v, rest) => some (v, rest)
    | _ => none
  | depth + 1, bytes =>
    match head? bytes with
    | none => none
    | some (.whole v, rest) => some (v, rest)
    | some (.items n, rest) =>
      (times? (value? depth) n rest).map fun (items, rest) => (.array items, rest)
    | some (.entries n, rest) =>
      (times? (pair? (value? depth)) n rest).map fun (entries, rest) => (.map entries, rest)

/-- How deep arrays, maps and extensions may be nested. -/
def maxDepth : Nat := 1023

/-- The value at the head of some bytes. -/
def read? (bytes : Bytes) : Option Pack :=
  (value? maxDepth bytes).map Prod.fst

end TopicMesh.Pack
