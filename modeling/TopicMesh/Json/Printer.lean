import TopicMesh.Json.Basic

/-!
# JSON text

`render` writes a value without any white space.  In a string only the quote, the
backslash and the control characters below U+0020 are escaped: five of those by a
letter, the others by four hexadecimal digits in lower case.
-/

namespace TopicMesh.Json

/-- The hexadecimal digit of a number below sixteen. -/
def hexDigit (n : Nat) : Char :=
  if n < 10 then Char.ofNat (n + 48) else Char.ofNat (n + 87)

/-- A character within a string. -/
def escape (c : Char) : List Char :=
  if c = '"' then ['\\', '"']
  else if c = '\\' then ['\\', '\\']
  else if c.toNat < 0x20 then
    match c.toNat with
    | 0x08 => ['\\', 'b']
    | 0x09 => ['\\', 't']
    | 0x0A => ['\\', 'n']
    | 0x0C => ['\\', 'f']
    | 0x0D => ['\\', 'r']
    | n => ['\\', 'u', '0', '0', hexDigit (n / 16), hexDigit (n % 16)]
  else [c]

/-- The text of a string; a string that denotes no text is written as half a
surrogate pair. -/
def renderString : Option String → List Char
  | some s => '"' :: s.toList.flatMap escape ++ ['"']
  | none => "\"\\ud800\"".toList

/-- The digits of a natural number. -/
def renderNat (n : Nat) : List Char :=
  Nat.toDigits 10 n

/-- The text of an integer. -/
def renderInt : Int → List Char
  | .ofNat n => renderNat n
  | .negSucc n => '-' :: renderNat (n + 1)

/-- The text of a decimal, with an exponent. -/
def renderDecimal (d : Decimal) : List Char :=
  (if d.negative then ['-'] else []) ++ renderNat d.digits ++ 'e' :: renderInt d.exponent

mutual

/-- The text of a value. -/
def renderChars : Json → List Char
  | null => "null".toList
  | bool true => "true".toList
  | bool false => "false".toList
  | integer n => renderInt n
  | decimal d => renderDecimal d
  | string s => renderString s
  | array items => '[' :: renderItems items ++ [']']
  | object members => '{' :: renderMembers members ++ ['}']

/-- The items of an array, with commas between them. -/
def renderItems : List Json → List Char
  | [] => []
  | [item] => renderChars item
  | item :: rest => renderChars item ++ ',' :: renderItems rest

/-- The members of an object, with commas between them. -/
def renderMembers : List (Option String × Json) → List Char
  | [] => []
  | [(name, value)] => renderString name ++ ':' :: renderChars value
  | (name, value) :: rest =>
    renderString name ++ ':' :: renderChars value ++ ',' :: renderMembers rest

end

/-- The text of a value. -/
def render (j : Json) : String :=
  String.ofList j.renderChars

end TopicMesh.Json
