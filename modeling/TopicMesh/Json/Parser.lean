import TopicMesh.Json.Basic
import TopicMesh.Text.Numeral

/-!
# Reading JSON text

`parse?` reads a text that holds one JSON value and, around it and between its
parts, blanks, tabs and line ends.  Everything else is refused: comments, signs
and zeros in front of a number, commas at the end of a list, control characters
within a string, and any text before or after the value.

A value is read by descent.  Each nested value is shorter than what holds it, so
`value?` counts down from the length of the text.
-/

namespace TopicMesh.Json

/-- Whether a character may stand between the parts of a JSON text. -/
def isSpace (c : Char) : Bool :=
  c == ' ' || c == '\t' || c == '\n' || c == '\r'

/-- The text from its first part on. -/
def skipSpace (cs : List Char) : List Char :=
  cs.dropWhile isSpace

/-! ## Strings -/

/-- The value of a hexadecimal digit. -/
def hexValue? (c : Char) : Option Nat :=
  if '0' ≤ c ∧ c ≤ '9' then some (c.toNat - 48)
  else if 'a' ≤ c ∧ c ≤ 'f' then some (c.toNat - 87)
  else if 'A' ≤ c ∧ c ≤ 'F' then some (c.toNat - 55)
  else none

/-- The value of four hexadecimal digits. -/
def hexQuad? (a b c d : Char) : Option Nat := do
  pure ((← hexValue? a) * 4096 + (← hexValue? b) * 256 + (← hexValue? c) * 16 + (← hexValue? d))

/-- The character that a letter after a backslash stands for. -/
def unescape? : Char → Option Char
  | '"' => some '"'
  | '\\' => some '\\'
  | '/' => some '/'
  | 'b' => some '\x08'
  | 'f' => some '\x0c'
  | 'n' => some '\n'
  | 'r' => some '\r'
  | 't' => some '\t'
  | _ => none

/-- What is known of a string while it is read. -/
structure Reading where
  /-- The characters so far, last first; `none` once they denote no text. -/
  read : Option (List Char)
  /-- The first half of a surrogate pair that was read last. -/
  pending : Option Nat

namespace Reading

/-- Settles a first half that no second half followed. -/
def settle (r : Reading) : Option (List Char) :=
  if r.pending.isSome then none else r.read

/-- Adds a character. -/
def push (r : Reading) (c : Char) : Reading :=
  ⟨r.settle.map (c :: ·), none⟩

/-- Adds a 16-bit unit given by its number. -/
def pushUnit (r : Reading) (n : Nat) : Reading :=
  if 0xD800 ≤ n ∧ n ≤ 0xDBFF then ⟨r.settle, some n⟩
  else if 0xDC00 ≤ n ∧ n ≤ 0xDFFF then
    match r.pending with
    | some high =>
      ⟨r.read.map (Char.ofNat (0x10000 + (high - 0xD800) * 0x400 + (n - 0xDC00)) :: ·), none⟩
    | none => ⟨none, none⟩
  else r.push (Char.ofNat n)

end Reading

/-- Reads a string after its opening quote. -/
def stringFrom (r : Reading) : List Char → Option (Option String × List Char)
  | [] => none
  | '"' :: rest => some (r.settle.map fun cs => String.ofList cs.reverse, rest)
  | '\\' :: 'u' :: a :: b :: c :: d :: rest =>
    match hexQuad? a b c d with
    | some n => stringFrom (r.pushUnit n) rest
    | none => none
  | '\\' :: c :: rest =>
    match unescape? c with
    | some c => stringFrom (r.push c) rest
    | none => none
  | c :: rest => if c = '\\' ∨ c.toNat < 0x20 then none else stringFrom (r.push c) rest

/-- Reads a string after its opening quote. -/
def string? (cs : List Char) : Option (Option String × List Char) :=
  stringFrom ⟨some [], none⟩ cs

/-! ## Numbers -/

/-- Whether a character is one of the ten digits. -/
def isDigit (c : Char) : Bool :=
  '0' ≤ c && c ≤ '9'

/-- The value of a digit. -/
def digitValue (c : Char) : Nat :=
  c.toNat - 48

/-- The number that a run of digits writes. -/
def numeralValue (ds : List Char) : Nat :=
  ds.foldl (fun n c => n * 10 + digitValue c) 0

/-- A run of digits, which may not be empty, and what follows it. -/
def digitRun? (cs : List Char) : Option (List Char × List Char) :=
  let run := cs.takeWhile isDigit
  if run.isEmpty then none else some (run, cs.dropWhile isDigit)

/-- The digits after a point, if there is one. -/
def fraction? : List Char → Option (List Char × List Char)
  | '.' :: rest => digitRun? rest
  | rest => some ([], rest)

/-- The signed number after an `e`. -/
def exponentAfter? : List Char → Option (Int × List Char)
  | '-' :: rest => (digitRun? rest).map fun (ds, rest) => (-(numeralValue ds : Int), rest)
  | '+' :: rest => (digitRun? rest).map fun (ds, rest) => ((numeralValue ds : Int), rest)
  | rest => (digitRun? rest).map fun (ds, rest) => ((numeralValue ds : Int), rest)

/-- The exponent of a number, if it has one. -/
def exponent? : List Char → Option (Option Int × List Char)
  | c :: rest =>
    if c = 'e' ∨ c = 'E' then (exponentAfter? rest).map fun (e, rest) => (some e, rest)
    else some (none, c :: rest)
  | [] => some (none, [])

/-- A number after its sign.  A zero in front stands alone. -/
def magnitude? (negative : Bool) (cs : List Char) : Option (Json × List Char) := do
  let (whole, rest) ← digitRun? cs
  if whole.head? = some '0' ∧ whole.length ≠ 1 then none
  else
    let (decimals, rest) ← fraction? rest
    let (power, rest) ← exponent? rest
    let value := numeralValue whole
    if decimals.isEmpty ∧ power.isNone ∧ ¬(negative ∧ value = 0) then
      some (.integer (if negative then -(value : Int) else value), rest)
    else
      let number := Decimal.short negative (whole.map digitValue) (decimals.map digitValue)
      some (.decimal (number (power.getD 0)), rest)

/-- Reads a number. -/
def number? : List Char → Option (Json × List Char)
  | '-' :: rest => magnitude? true rest
  | rest => magnitude? false rest

/-! ## Values -/

mutual

/-- Reads one value. -/
def value? : (fuel : Nat) → List Char → Option (Json × List Char)
  | 0, _ => none
  | fuel + 1, cs =>
    match skipSpace cs with
    | 'n' :: 'u' :: 'l' :: 'l' :: rest => some (.null, rest)
    | 't' :: 'r' :: 'u' :: 'e' :: rest => some (.bool true, rest)
    | 'f' :: 'a' :: 'l' :: 's' :: 'e' :: rest => some (.bool false, rest)
    | '"' :: rest => (string? rest).map fun (s, rest) => (.string s, rest)
    | '[' :: rest =>
      match skipSpace rest with
      | ']' :: rest => some (.array [], rest)
      | rest => (items? fuel rest).map fun (items, rest) => (.array items, rest)
    | '{' :: rest =>
      match skipSpace rest with
      | '}' :: rest => some (.object [], rest)
      | rest => (members? fuel rest).map fun (members, rest) => (.object members, rest)
    | rest => number? rest

/-- Reads the items of an array up to its closing bracket. -/
def items? : (fuel : Nat) → List Char → Option (List Json × List Char)
  | 0, _ => none
  | fuel + 1, cs =>
    match value? fuel cs with
    | none => none
    | some (item, rest) =>
      match skipSpace rest with
      | ',' :: rest => (items? fuel rest).map fun (items, rest) => (item :: items, rest)
      | ']' :: rest => some ([item], rest)
      | _ => none

/-- Reads the members of an object up to its closing brace. -/
def members? : (fuel : Nat) → List Char → Option (List (Option String × Json) × List Char)
  | 0, _ => none
  | fuel + 1, cs =>
    match skipSpace cs with
    | '"' :: rest =>
      match string? rest with
      | none => none
      | some (name, rest) =>
        match skipSpace rest with
        | ':' :: rest =>
          match value? fuel rest with
          | none => none
          | some (value, rest) =>
            match skipSpace rest with
            | ',' :: rest =>
              (members? fuel rest).map fun (members, rest) => ((name, value) :: members, rest)
            | '}' :: rest => some ([(name, value)], rest)
            | _ => none
        | _ => none
    | _ => none

end

/-- The value that a text holds. -/
def parseChars? (cs : List Char) : Option Json :=
  match value? (2 * cs.length + 2) cs with
  | some (j, rest) => if (skipSpace rest).isEmpty then some j else none
  | none => none

/-- The value that a text holds. -/
def parse? (s : String) : Option Json :=
  parseChars? s.toList

end TopicMesh.Json
