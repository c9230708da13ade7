/-!
# Decimal numerals

Numbers in a candidate line, in settings and in JSON are decimal.  A numeral is
a non-empty run of the ASCII digits; `unsigned?` and `signed?` also take a sign
in front, and `natural?` takes none.
-/

namespace TopicMesh.Text

/-- The value of one ASCII digit. -/
def digit? (c : Char) : Option Nat :=
  if '0' ≤ c ∧ c ≤ '9' then some (c.toNat - '0'.toNat) else none

/-- The value of a run of digits, added to the digits already read. -/
def digits? (n : Nat) : List Char → Option Nat
  | [] => some n
  | c :: rest => (digit? c).bind fun d => digits? (n * 10 + d) rest

/-- The value of a non-empty run of digits. -/
def natural? : List Char → Option Nat
  | [] => none
  | c :: rest => digits? 0 (c :: rest)

/-- The value of a numeral that may have a plus sign. -/
def unsigned? : List Char → Option Nat
  | '+' :: rest => natural? rest
  | rest => natural? rest

/-- The value of a numeral that may have a sign. -/
def signed? : List Char → Option Int
  | '-' :: rest => (natural? rest).map fun n => -(n : Int)
  | rest => (unsigned? rest).map Int.ofNat

/-- The port number that a numeral names. -/
def port? (s : String) : Option UInt16 :=
  (unsigned? s.toList).bind fun n => if n < UInt16.size then some (UInt16.ofNat n) else none

end TopicMesh.Text
